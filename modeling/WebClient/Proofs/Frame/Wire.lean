import WebClient.Proofs.Frame.Pieces

/-!
# The frames of a server

A frame of a server goes out as one byte for its final bit and its opcode, the length of its
payload in one of three forms, which need not be the shortest, and the payload as it is. A reader
that waits for a header takes such a frame off its buffer whole, and what comes of it depends on the
frame alone (`decode_bytes`). So a buffer of frames is drained one frame after the other
(`drain_wire`), and what is proved of readers of frames may leave out how frames are written.
-/

namespace WebClient

/-! ### Writing a frame -/

/-- How the length of a payload is written: in the header's second byte, or behind it in two or in
eight bytes. -/
inductive LengthForm where
  | short
  | medium
  | long
  deriving DecidableEq, Repr

namespace LengthForm

def most : LengthForm → Nat
  | short => 125
  | medium => 65535
  | long => Frame.maxPayload

def announced : LengthForm → (length : Nat) → Nat
  | short, length => length
  | medium, _ => 126
  | long, _ => 127

theorem most_le (form : LengthForm) : form.most ≤ Frame.maxPayload := by
  cases form <;> decide

def behind : LengthForm → (length : Nat) → Bytes
  | short, _ => []
  | medium, length => Bytes.ofNat 2 length
  | long, length => Bytes.ofNat 8 length

end LengthForm

namespace FrameHead

def byte (head : FrameHead) : UInt8 :=
  (if head.fin then 0x80 else 0) ||| head.code

def isControl (head : FrameHead) : Bool :=
  (Opcode.ofCode? head.code).any Opcode.isControl

end FrameHead

/-- A frame that a server may send. Control frames are not fragmented, and say how long they are in
the shortest form. -/
structure ServerFrame where
  head : FrameHead
  form : LengthForm
  payload : Bytes
  code_lt : head.code < 16
  fits : payload.length ≤ form.most
  control : head.isControl = true → head.fin = true ∧ form = .short

namespace ServerFrame

def bytes (f : ServerFrame) : Bytes :=
  f.head.byte :: UInt8.ofNat (f.form.announced f.payload.length) ::
    f.form.behind f.payload.length ++ f.payload

def wire (frames : List ServerFrame) : Bytes :=
  frames.flatMap bytes

end ServerFrame

/-! ### Reading a frame -/

theorem FrameHead.byte_and {head : FrameHead} (h : head.code < 16) :
    head.byte &&& 0x70 = 0 ∧ (head.byte &&& 0x80 ≠ 0 ↔ head.fin = true) ∧
      head.byte &&& 0x0F = head.code := by
  obtain ⟨fin, code⟩ := head
  have hall : ∀ n : Fin 16, ∀ fin : Bool,
      FrameHead.byte ⟨fin, UInt8.ofNat n⟩ &&& 0x70 = 0 ∧
        (FrameHead.byte ⟨fin, UInt8.ofNat n⟩ &&& 0x80 ≠ 0 ↔ fin = true) ∧
          FrameHead.byte ⟨fin, UInt8.ofNat n⟩ &&& 0x0F = UInt8.ofNat n := by decide
  have hlt : code.toNat < 16 := by simpa [UInt8.lt_iff_toNat_lt] using h
  have hcode : UInt8.ofNat code.toNat = code := UInt8.ofNat_toNat
  rw [← hcode]
  exact hall ⟨code.toNat, hlt⟩ fin

theorem LengthForm.announced_lt {form : LengthForm} {length : Nat} (h : length ≤ form.most) :
    form.announced length < 128 := by
  cases form with
  | short => exact Nat.lt_of_le_of_lt h (by decide)
  | medium => exact (by decide : 126 < 128)
  | long => exact (by decide : 127 < 128)

theorem announced_and {n : Nat} (h : n < 128) :
    UInt8.ofNat n &&& 0x80 = 0 ∧ (UInt8.ofNat n &&& 0x7F).toNat = n := by
  have hall : ∀ n : Fin 128, UInt8.ofNat n &&& 0x80 = 0 ∧ (UInt8.ofNat n &&& 0x7F).toNat = n := by
    decide
  exact hall ⟨n, h⟩

namespace FrameReader

def phaseBehind (f : ServerFrame) : FramePhase :=
  match f.form with
  | .short => .payload f.head f.payload.length
  | .medium => .length16 f.head
  | .long => .length64 f.head

theorem readHeader_frame (f : ServerFrame) :
    readHeader f.head.byte (UInt8.ofNat (f.form.announced f.payload.length)) =
      .ok (phaseBehind f) := by
  obtain ⟨hreserved, hfin, hcode⟩ := FrameHead.byte_and f.code_lt
  obtain ⟨hmask, hlength⟩ := announced_and (LengthForm.announced_lt f.fits)
  have hhead : ({ fin := decide (f.head.byte &&& 0x80 ≠ 0), code := f.head.byte &&& 0x0F } :
      FrameHead) = f.head := by
    rw [hcode]
    simp only [hfin, Bool.decide_eq_true]
  rw [readHeader, if_neg (by simp [hreserved]), if_neg (by simp [hmask]), hhead, hlength]
  have hshort : f.head.isControl = true → f.form.announced f.payload.length ≤ 125 := by
    intro hcontrol
    have hfits := f.fits
    rw [(f.control hcontrol).2] at hfits ⊢
    exact hfits
  have hwhole : (f.head.isControl && !f.head.fin) = false := by
    cases hcontrol : f.head.isControl with
    | false => rfl
    | true => simp [(f.control hcontrol).1]
  have hsmall : (f.head.isControl && f.form.announced f.payload.length > Frame.maxControlPayload) =
      false := by
    cases hcontrol : f.head.isControl with
    | false => rfl
    | true => simp [Frame.maxControlPayload, hshort hcontrol]
  rw [FrameHead.isControl] at hwhole hsmall
  simp only [hwhole, hsmall, Bool.false_eq_true, if_false]
  have hfits := f.fits
  unfold phaseBehind
  cases hform : f.form with
  | short =>
    rw [hform] at hfits
    have hle : f.payload.length ≤ 125 := hfits
    have h126 : ¬ f.payload.length = 126 := by omega
    have h127 : ¬ f.payload.length = 127 := by omega
    exact (if_neg h126).trans (if_neg h127)
  | medium => rfl
  | long => rfl

/-- **A frame is read for what it is.** A reader that waits for a header takes a frame off the
buffer, whatever stands behind it. -/
theorem decode_bytes {r : FrameReader} (hphase : r.phase = .header) (f : ServerFrame)
    (rest : Bytes) :
    r.decode (f.bytes ++ rest) =
      { result := (r.classify f.head f.payload).2.map some
        reader := (r.classify f.head f.payload).1
        rest } := by
  have hle : ¬ f.payload.length > Frame.maxPayload :=
    Nat.not_lt.2 (Nat.le_trans f.fits f.form.most_le)
  have hpayload : FrameReader.step { r with phase := .payload f.head f.payload.length }
      (f.payload ++ rest) =
        .answer ((r.classify f.head f.payload).2.map some) (r.classify f.head f.payload).1
          rest := by
    simp only [step, if_neg hle, Bytes.take?_length_append]
    obtain ⟨phase, fragment, carry⟩ := r
    obtain rfl : phase = .header := hphase
    rfl
  have hheader : r.step (f.bytes ++ rest) =
      .again { r with phase := phaseBehind f }
        (f.form.behind f.payload.length ++ (f.payload ++ rest)) := by
    simp only [step, hphase, ServerFrame.bytes, List.cons_append, readHeader_frame,
      List.append_assoc]
  rw [decode_of_again hheader]
  unfold phaseBehind
  cases hform : f.form with
  | short => exact decode_of_answer hpayload
  | medium =>
    have hlength : FrameReader.step { r with phase := .length16 f.head }
        (Bytes.ofNat 2 f.payload.length ++ (f.payload ++ rest)) =
          .again { r with phase := .payload f.head f.payload.length } (f.payload ++ rest) := by
      have hfits := f.fits
      rw [hform] at hfits
      have htake := Bytes.take?_length_append (Bytes.ofNat 2 f.payload.length) (f.payload ++ rest)
      rw [Bytes.length_ofNat] at htake
      have hlt : f.payload.length < 256 ^ 2 := Nat.lt_of_le_of_lt hfits (by decide)
      simp only [step, htake, Bytes.toNat_ofNat hlt]
    exact (decode_of_again hlength).trans (decode_of_answer hpayload)
  | long =>
    have hlength : FrameReader.step { r with phase := .length64 f.head }
        (Bytes.ofNat 8 f.payload.length ++ (f.payload ++ rest)) =
          .again { r with phase := .payload f.head f.payload.length } (f.payload ++ rest) := by
      have htake := Bytes.take?_length_append (Bytes.ofNat 8 f.payload.length) (f.payload ++ rest)
      rw [Bytes.length_ofNat] at htake
      have hlt : f.payload.length < 256 ^ 8 :=
        Nat.lt_of_le_of_lt (Nat.not_lt.1 hle) (by decide)
      simp only [step, htake, Bytes.toNat_ofNat hlt, if_neg hle]
    exact (decode_of_again hlength).trans (decode_of_answer hpayload)

/-- What a reader makes of frames, one after the other. The frames behind an error stay unread. -/
def accept (r : FrameReader) : List ServerFrame → Drained
  | [] => { reader := r, rest := [] }
  | f :: frames =>
    let (r, result) := r.classify f.head f.payload
    match result with
    | .ok received => (r.accept frames).behind [received]
    | .error e => { failure := some e, reader := r, rest := ServerFrame.wire frames }

/-- **Frames are read one by one.** -/
theorem drain_wire {r : FrameReader} (hphase : r.phase = .header) (frames : List ServerFrame) :
    r.drain (ServerFrame.wire frames) = r.accept frames := by
  induction frames generalizing r with
  | nil =>
    have hwaits : r.Waits [] := by simp only [Waits, step, hphase]
    exact drain_of_waits hwaits
  | cons f frames ih =>
    have hbehind : (r.classify f.head f.payload).1.phase = .header := by
      rw [phase_classify, hphase]
    rw [drain_eq, ServerFrame.wire, List.flatMap_cons, decode_bytes hphase]
    cases hresult : (r.classify f.head f.payload).2 with
    | error e => simp only [Answer.drain, accept, hresult, Except.map, ServerFrame.wire]
    | ok received =>
      simp only [Answer.drain, accept, hresult, Except.map]
      rw [← ih hbehind, ServerFrame.wire]

end FrameReader

end WebClient
