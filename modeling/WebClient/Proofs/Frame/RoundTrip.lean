import Mathlib.Data.List.Forall2
import WebClient.Proofs.Frame.Wire
import WebClient.Proofs.Text.Utf8

/-!
# Frames read back

The writer of frames masks what it sends, and the reader takes frames that are not masked, so the
two never meet. Taking the mask off the bytes of a frame (`unmask`) makes it a frame of a server,
and then they agree: on the three forms of a length and where one ends and the next begins, on what
may be sent (`encode_error_iff`), and on what a frame is within the message that it belongs to
(`drain_unmask`).
-/

namespace WebClient

/-! ### Masked bytes -/

/-- How many bytes behind a frame's second byte say how long it is. -/
def lengthCount (second : UInt8) : Nat :=
  if second &&& 0x7F = 126 then 2 else if second &&& 0x7F = 127 then 8 else 0

/-- The bytes of a masked frame as a server would have sent them: without the mask bit and the key,
and with the payload combined with the key again. -/
def unmask : Bytes → Bytes
  | first :: second :: rest =>
    match rest.drop (lengthCount second) with
    | byte0 :: byte1 :: byte2 :: byte3 :: masked =>
      first :: (second &&& 0x7F) :: rest.take (lengthCount second) ++
        MaskKey.apply { byte0, byte1, byte2, byte3 } masked
    | _ => first :: second :: rest
  | bytes => bytes

def LengthForm.shortest (length : Nat) : LengthForm :=
  if length < 126 then .short else if length < 65536 then .medium else .long

namespace LengthForm

theorem le_most_shortest {length : Nat} (h : length ≤ Frame.maxPayload) :
    length ≤ (shortest length).most := by
  unfold shortest
  split
  · exact Nat.le_of_lt_succ ‹_›
  · split
    · exact Nat.le_of_lt_succ ‹_›
    · exact h

theorem lengthBytes_eq (length : Nat) :
    Frame.lengthBytes length =
      (0x80 ||| UInt8.ofNat ((shortest length).announced length)) ::
        (shortest length).behind length := by
  unfold Frame.lengthBytes shortest
  split
  · rfl
  · split <;> rfl

theorem lengthCount_announced {form : LengthForm} {length : Nat} (h : length ≤ form.most) :
    (0x80 ||| UInt8.ofNat (form.announced length)) &&& 0x7F =
        UInt8.ofNat (form.announced length) ∧
      lengthCount (0x80 ||| UInt8.ofNat (form.announced length)) =
        (form.behind length).length := by
  have hall : ∀ n : Fin 128, (0x80 ||| UInt8.ofNat n) &&& 0x7F = UInt8.ofNat n := by decide
  have hmask := hall ⟨form.announced length, announced_lt h⟩
  refine ⟨hmask, ?_⟩
  rw [lengthCount, hmask]
  cases form with
  | medium => rfl
  | long => rfl
  | short =>
    have hle : length ≤ 125 := h
    have hother : ∀ n : Fin 126, UInt8.ofNat n ≠ 126 ∧ UInt8.ofNat n ≠ 127 := by decide
    obtain ⟨h126, h127⟩ := hother ⟨length, by omega⟩
    exact (if_neg h126).trans (if_neg h127)

end LengthForm

namespace Frame

/-! ### What is written -/

/-- **What is refused**: a control frame that is long or fragmented, and a payload that is too
long. -/
theorem encode_error_iff (frame : Frame) (key : MaskKey) :
    (∃ e, frame.encode key = .error e) ↔
      frame.opcode.isControl = true ∧ (frame.payload.length > 125 ∨ frame.fin = false) ∨
        frame.payload.length > 16 * 1024 * 1024 := by
  unfold encode refusal?
  by_cases hcontrol : frame.opcode.isControl = true ∧
      (frame.payload.length > 125 ∨ frame.fin = false)
  · have hrefused : (frame.opcode.isControl &&
        (frame.payload.length > maxControlPayload || !frame.fin)) = true := by
      simpa [maxControlPayload] using hcontrol
    simp only [hrefused, if_true]
    exact ⟨fun _ => .inl hcontrol, fun _ => ⟨_, rfl⟩⟩
  · have hallowed : (frame.opcode.isControl &&
        (frame.payload.length > maxControlPayload || !frame.fin)) = false := by
      simpa [maxControlPayload] using hcontrol
    simp only [hallowed, Bool.false_eq_true, if_false]
    by_cases hlong : frame.payload.length > maxPayload
    · rw [if_pos hlong]
      exact ⟨fun _ => .inr hlong, fun _ => ⟨_, rfl⟩⟩
    · rw [if_neg hlong]
      refine ⟨?_, fun h => (h.elim hcontrol hlong).elim⟩
      rintro ⟨e, he⟩
      simp at he

/-- A frame that is written, with the mask taken off, is one that a server may send. -/
theorem exists_serverFrame {frame : Frame} {key : MaskKey} {bytes : Bytes}
    (h : frame.encode key = .ok bytes) :
    ∃ f : ServerFrame, f.bytes = unmask bytes ∧ f.head = ⟨frame.fin, frame.opcode.code⟩ ∧
      f.payload = frame.payload := by
  have hnot : ¬ ∃ e, frame.encode key = .error e := by
    rintro ⟨e, he⟩
    simp [h] at he
  rw [encode_error_iff, not_or] at hnot
  obtain ⟨hcontrol, hlong⟩ := hnot
  have hfits := LengthForm.le_most_shortest (Nat.not_lt.1 hlong)
  have hbytes : bytes = frame.head ++ key.toBytes ++ key.apply frame.payload := by
    unfold encode at h
    split at h
    · simp at h
    · exact (Except.ok.inj h).symm
  have hcode : frame.opcode.code < 16 := by cases frame.opcode <;> decide
  have hwhole : FrameHead.isControl ⟨frame.fin, frame.opcode.code⟩ = true →
      frame.fin = true ∧ LengthForm.shortest frame.payload.length = .short := by
    intro hc
    have hopcode : frame.opcode.isControl = true := by
      simpa [FrameHead.isControl] using hc
    have hshort : frame.payload.length < 126 ∧ frame.fin = true := by
      simpa [hopcode, Nat.lt_succ_iff] using hcontrol
    exact ⟨hshort.2, if_pos hshort.1⟩
  refine ⟨⟨⟨frame.fin, frame.opcode.code⟩, .shortest frame.payload.length, frame.payload, hcode,
    hfits, hwhole⟩, ?_, rfl, rfl⟩
  obtain ⟨hmask, hcount⟩ := LengthForm.lengthCount_announced hfits
  rw [hbytes, head, LengthForm.lengthBytes_eq, MaskKey.toBytes]
  simp only [List.cons_append, List.append_assoc, List.nil_append, unmask, hmask, hcount,
    List.drop_left, List.take_left, MaskKey.apply_apply]
  rfl

end Frame

/-! ### What is read -/

namespace MessageKind

def opcode : MessageKind → Opcode
  | text => .text
  | binary => .binary

end MessageKind

/-- What a data frame is read as. The frames of a text are each a text of their own. -/
inductive DataRead : MessageKind → (payload : Bytes) → (fin : Bool) → Received → Prop
  | text (body : String) (fin : Bool) :
    DataRead .text (Bytes.ofString body) fin (.text body fin)
  | binary (payload : Bytes) (fin : Bool) : DataRead .binary payload fin (.binary payload fin)

/-- What a frame is read as while a message of a kind is in progress, or none, and what is in
progress behind it. -/
inductive FrameRead : Option MessageKind → Frame → Received → Option MessageKind → Prop
  | first {kind : MessageKind} {payload : Bytes} {fin : Bool} {received : Received}
    (h : DataRead kind payload fin received) :
    FrameRead none ⟨kind.opcode, payload, fin⟩ received (if fin then none else some kind)
  | next {kind : MessageKind} {payload : Bytes} {fin : Bool} {received : Received}
    (h : DataRead kind payload fin received) :
    FrameRead (some kind) ⟨.continuation, payload, fin⟩ received (if fin then none else some kind)
  | ping (progress : Option MessageKind) (payload : Bytes) (fin : Bool) :
    FrameRead progress ⟨.ping, payload, fin⟩ (.ping payload) progress
  | pong (progress : Option MessageKind) (payload : Bytes) (fin : Bool) :
    FrameRead progress ⟨.pong, payload, fin⟩ (.pong payload) progress
  | bareClose (progress : Option MessageKind) (fin : Bool) :
    FrameRead progress ⟨.close, [], fin⟩ (.close CloseCode.noStatus "") progress
  | close (progress : Option MessageKind) (code : CloseCode) (reason : String) (fin : Bool) :
    FrameRead progress ⟨.close, Bytes.ofNat 2 code.toNat ++ Bytes.ofString reason, fin⟩
      (.close code reason) progress

inductive FramesRead : Option MessageKind → List Frame → List Received → Option MessageKind → Prop
  | nil (progress : Option MessageKind) : FramesRead progress [] [] progress
  | cons {before between behind : Option MessageKind} {frame : Frame} {frames : List Frame}
    {received : Received} {later : List Received} (h : FrameRead before frame received between)
    (hlater : FramesRead between frames later behind) :
    FramesRead before (frame :: frames) (received :: later) behind

namespace FrameReader

theorem readClose_code (code : CloseCode) (reason : String) :
    readClose (Bytes.ofNat 2 code.toNat ++ Bytes.ofString reason) = .ok (.close code reason) := by
  obtain ⟨high, low, hbytes⟩ := List.length_eq_two.1 (Bytes.length_ofNat 2 code.toNat)
  have hcode : Bytes.toNat [high, low] = code.toNat := by
    rw [← hbytes]
    exact Bytes.toNat_ofNat code.toNat_lt
  rw [hbytes]
  simp only [List.cons_append, List.nil_append, readClose, Utf8.decode?_ofString, hcode,
    UInt16.ofNat_toNat]

theorem readData_eq {kind : MessageKind} {payload : Bytes} {fin : Bool} {received : Received}
    (h : DataRead kind payload fin received) (fragment : Option MessageKind) :
    readData { fragment } kind fin payload = ({ fragment }, .ok received) := by
  cases h with
  | text body => simp [readData]
  | binary payload => rfl

theorem classify_of_frameRead {before behind : Option MessageKind} {frame : Frame}
    {received : Received} (h : FrameRead before frame received behind) :
    classify { fragment := before } ⟨frame.fin, frame.opcode.code⟩ frame.payload =
      ({ fragment := behind }, .ok received) := by
  cases h with
  | @first kind payload fin received h =>
    have hdata := readData_eq h (if fin then none else some kind)
    cases kind <;> exact hdata
  | next h => exact readData_eq h _
  | ping payload fin => rfl
  | pong payload fin => rfl
  | bareClose fin => rfl
  | close _ code reason fin => exact congrArg (Prod.mk _) (readClose_code code reason)

/-- A frame of a server and a frame to be sent are the same but for the mask. -/
def SameFrame (sent : Frame × MaskKey) (f : ServerFrame) : Prop :=
  f.head = ⟨sent.1.fin, sent.1.opcode.code⟩ ∧ f.payload = sent.1.payload

theorem accept_of_framesRead {sent : List (Frame × MaskKey)} {frames : List ServerFrame}
    (hsame : List.Forall₂ SameFrame sent frames) {before behind : Option MessageKind}
    {received : List Received} (h : FramesRead before (sent.map Prod.fst) received behind) :
    accept { fragment := before } frames =
      { frames := received, reader := { fragment := behind }, rest := [] } := by
  induction hsame generalizing before received with
  | nil =>
    cases h with
    | nil => rfl
  | @cons sent f sents frames hhead htail ih =>
    obtain ⟨hcode, hpayload⟩ := hhead
    cases h with
    | cons h hlater =>
      rw [accept, hcode, hpayload, classify_of_frameRead h]
      simp only [ih hlater, Drained.behind, List.singleton_append]

theorem exists_serverFrames {sent : List (Frame × MaskKey)} {wires : List Bytes}
    (h : List.Forall₂ (fun (frame, key) bytes => frame.encode key = .ok bytes) sent wires) :
    ∃ frames, ServerFrame.wire frames = wires.flatMap unmask ∧
      List.Forall₂ SameFrame sent frames := by
  induction h with
  | nil => exact ⟨[], rfl, .nil⟩
  | cons hencode _ ih =>
    obtain ⟨f, hbytes, hhead, hpayload⟩ := Frame.exists_serverFrame hencode
    obtain ⟨frames, hwire, hsame⟩ := ih
    refine ⟨f :: frames, ?_, .cons ⟨hhead, hpayload⟩ hsame⟩
    rw [List.flatMap_cons, ← hbytes, ← hwire]
    rfl

/-- **Frames are read back as they were written**: those that are not refused, whatever their keys,
come out of the reader one for one. What is refused is a control frame that is long or fragmented,
and a payload that is too long. -/
theorem drain_unmask {sent : List (Frame × MaskKey)} {wires : List Bytes}
    (hencode : List.Forall₂ (fun (frame, key) bytes => frame.encode key = .ok bytes) sent wires)
    {received : List Received} {behind : Option MessageKind}
    (hread : FramesRead none (sent.map Prod.fst) received behind) :
    drain {} (wires.flatMap unmask) =
        { frames := received, reader := { fragment := behind }, rest := [] } ∧
      ∀ (frame : Frame) (key : MaskKey), (∃ e, frame.encode key = .error e) ↔
        frame.opcode.isControl = true ∧ (frame.payload.length > 125 ∨ frame.fin = false) ∨
          frame.payload.length > 16 * 1024 * 1024 := by
  refine ⟨?_, Frame.encode_error_iff⟩
  obtain ⟨frames, hwire, hsame⟩ := exists_serverFrames hencode
  rw [← hwire, drain_wire rfl, accept_of_framesRead hsame hread]

def textAndClose : List (Frame × MaskKey) :=
  [(⟨.text, Bytes.ofString "a", false⟩, ⟨1, 2, 3, 4⟩), (⟨.ping, [1, 2], true⟩, ⟨5, 6, 7, 8⟩),
    (⟨.continuation, Bytes.ofString "b", true⟩, ⟨255, 0, 0, 0⟩),
    (⟨.close, Bytes.ofNat 2 1000 ++ Bytes.ofString "c", true⟩, ⟨0, 0, 0, 1⟩)]

theorem drain_textAndClose :
    drain {} ([[1, 0x81, 1, 2, 3, 4, 0x60], [0x89, 0x82, 5, 6, 7, 8, 4, 4],
        [0x80, 0x81, 255, 0, 0, 0, 0x9d], [0x88, 0x83, 0, 0, 0, 1, 3, 0xe8, 0x63]].flatMap unmask) =
      { frames := [.text "a" false, .ping [1, 2], .text "b" true, .close 1000 "c"]
        reader := {}
        rest := [] } := by
  have hread : FramesRead none (textAndClose.map Prod.fst)
      [.text "a" false, .ping [1, 2], .text "b" true, .close 1000 "c"] none :=
    .cons (.first (.text "a" false)) (.cons (.ping (some .text) [1, 2] true)
      (.cons (.next (.text "b" true)) (.cons (.close none 1000 "c" true) (.nil none))))
  exact (drain_unmask (.cons rfl (.cons rfl (.cons rfl (.cons rfl .nil)))) hread).1

end FrameReader

end WebClient
