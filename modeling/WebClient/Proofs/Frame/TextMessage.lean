import Mathlib.Data.List.Forall2
import WebClient.Proofs.Frame.Carry
import WebClient.Proofs.Frame.Wire

/-!
# Fragments of a text

A text may be cut anywhere into the payloads of its frames, also inside a character. What carries
the proofs is that the bytes the reader carries, with the payloads still to come, are the text that
is left to read: a fragment gives back the characters that are whole, and what is left over is
carried to the next (`classify_of_text`). So a text comes back as it was sent, and other bytes are
refused with the first frame that leaves no text they could be the beginning of.
-/

namespace WebClient

/-- The frames of a text message: a Text frame, or a Continuation frame where the message has
`begun`, then Continuation frames, of which the last and no other is final. Pings and Pongs may
stand in front of each. -/
inductive TextFrames : (begun : Bool) → List ServerFrame → Prop
  | signal {begun : Bool} {f : ServerFrame} {frames : List ServerFrame}
      (hcode : f.head.code = Opcode.ping.code ∨ f.head.code = Opcode.pong.code)
      (h : TextFrames begun frames) : TextFrames begun (f :: frames)
  | fragment {begun : Bool} {f : ServerFrame} {frames : List ServerFrame}
      (hcode : f.head.code = (if begun then Opcode.continuation else .text).code)
      (hfin : f.head.fin = false) (h : TextFrames true frames) : TextFrames begun (f :: frames)
  | last {begun : Bool} {f : ServerFrame}
      (hcode : f.head.code = (if begun then Opcode.continuation else .text).code)
      (hfin : f.head.fin = true) : TextFrames begun [f]

namespace ServerFrame

def data (frames : List ServerFrame) : Bytes :=
  frames.flatMap fun f => if f.head.isControl then [] else f.payload

theorem isControl_of_code {head : FrameHead} {opcode : Opcode} (h : head.code = opcode.code) :
    head.isControl = opcode.isControl := by
  rw [FrameHead.isControl, h, Opcode.ofCode?_code]
  rfl

theorem data_of_signal {f : ServerFrame}
    (hcode : f.head.code = Opcode.ping.code ∨ f.head.code = Opcode.pong.code)
    (frames : List ServerFrame) : data (f :: frames) = data frames := by
  have hcontrol : f.head.isControl = true := by
    rcases hcode with hcode | hcode
    · exact isControl_of_code hcode
    · exact isControl_of_code hcode
  simp [data, hcontrol]

theorem isControl_of_data {begun : Bool} {f : ServerFrame}
    (hcode : f.head.code = (if begun then Opcode.continuation else .text).code) :
    f.head.isControl = false := by
  rw [isControl_of_code hcode]
  split <;> rfl

theorem data_of_data {begun : Bool} {f : ServerFrame}
    (hcode : f.head.code = (if begun then Opcode.continuation else .text).code)
    (frames : List ServerFrame) : data (f :: frames) = f.payload ++ data frames := by
  simp [data, isControl_of_data hcode]

end ServerFrame

/-- A frame of a text message, as it comes back from the reader. -/
inductive ReadAs (f : ServerFrame) : Received → Prop
  | ping (hcode : f.head.code = Opcode.ping.code) : ReadAs f (.ping f.payload)
  | pong (hcode : f.head.code = Opcode.pong.code) : ReadAs f (.pong f.payload)
  | text (hdata : f.head.isControl = false) (body : String) : ReadAs f (.text body f.head.fin)

def textOf : List Received → String
  | [] => ""
  | .text body _ :: later => body ++ textOf later
  | _ :: later => textOf later

namespace FrameReader

/-- A text message has begun, or no message is in progress. -/
def InText (r : FrameReader) (begun : Bool) : Prop :=
  r.fragment = if begun then some .text else none

theorem classify_of_signal {f : ServerFrame}
    (hcode : f.head.code = Opcode.ping.code ∨ f.head.code = Opcode.pong.code) (r : FrameReader) :
    ∃ received, r.classify f.head f.payload = (r, .ok received) ∧ ReadAs f received ∧
      ∀ later, textOf (received :: later) = textOf later := by
  rcases hcode with hcode | hcode
  · refine ⟨.ping f.payload, ?_, .ping hcode, fun _ => rfl⟩
    rw [classify, hcode, Opcode.ofCode?_code]
  · refine ⟨.pong f.payload, ?_, .pong hcode, fun _ => rfl⟩
    rw [classify, hcode, Opcode.ofCode?_code]

theorem classify_of_data {r : FrameReader} {begun : Bool} (h : r.InText begun) {f : ServerFrame}
    (hcode : f.head.code = (if begun then Opcode.continuation else .text).code) :
    r.classify f.head f.payload =
      readData { r with fragment := if f.head.fin then none else some .text } .text f.head.fin
        f.payload := by
  rw [classify, hcode, Opcode.ofCode?_code]
  cases begun with
  | false =>
    have hnone : r.fragment = none := h
    simp only [Bool.false_eq_true, if_false, startMessage, hnone, Option.isSome_none]
  | true =>
    have hsome : r.fragment = some .text := h
    simp only [if_true, continueMessage, hsome]

theorem accept_of_ok {r r' : FrameReader} {f : ServerFrame} {received : Received}
    (h : r.classify f.head f.payload = (r', .ok received)) (frames : List ServerFrame) :
    r.accept (f :: frames) = (r'.accept frames).behind [received] := by
  rw [accept, h]

theorem accept_of_error {r r' : FrameReader} {f : ServerFrame} {e : Error}
    (h : r.classify f.head f.payload = (r', .error e)) (frames : List ServerFrame) :
    r.accept (f :: frames) =
      { failure := some e, reader := r', rest := ServerFrame.wire frames } := by
  rw [accept, h]

theorem accept_of_text {begun : Bool} {frames : List ServerFrame} (h : TextFrames begun frames)
    {r : FrameReader} (hin : r.InText begun) {text : String}
    (htext : r.carry ++ ServerFrame.data frames = Bytes.ofString text) :
    ∃ received, r.accept frames =
        { frames := received, reader := { r with fragment := none, carry := [] }, rest := [] } ∧
      List.Forall₂ ReadAs frames received ∧ textOf received = text := by
  induction h generalizing r text with
  | signal hcode h ih =>
    obtain ⟨first, hclassify, hfirst, htextOf⟩ := classify_of_signal hcode r
    rw [ServerFrame.data_of_signal hcode] at htext
    obtain ⟨received, haccept, hread, hwhole⟩ := ih hin htext
    refine ⟨first :: received, ?_, .cons hfirst hread, ?_⟩
    · rw [accept_of_ok hclassify, haccept]
      rfl
    · rw [htextOf, hwhole]
  | @fragment begun f frames hcode hfin h ih =>
    -- What is left of this fragment is carried, and with the payloads behind it is a text again.
    rw [ServerFrame.data_of_data hcode, ← List.append_assoc] at htext
    obtain ⟨body, tail, later, hread, hlater, rfl⟩ := Utf8.read_of_append_eq_ofString htext
    have hclassify : r.classify f.head f.payload =
        ({ r with fragment := some .text, carry := tail }, .ok (.text body f.head.fin)) := by
      rw [classify_of_data hin hcode, hfin]
      rcases hread with ⟨hread, rfl⟩ | hread
      · simp only [readData, hread, Bool.false_eq_true, if_false]
      · simp only [readData, hread, Bool.false_eq_true, if_false]
    have hbehind : InText { r with fragment := some .text, carry := tail } true := rfl
    obtain ⟨received, haccept, hreadAs, hwhole⟩ := ih hbehind hlater
    refine ⟨.text body f.head.fin :: received, ?_, ?_, ?_⟩
    · rw [accept_of_ok hclassify, haccept]
      rfl
    · exact .cons (.text (ServerFrame.isControl_of_data hcode) body) hreadAs
    · rw [textOf, hwhole]
  | @last begun f hcode hfin =>
    have hread : Utf8.read (r.carry ++ f.payload) = (text, .complete) := by
      rw [← Utf8.read_ofString, ← htext, ServerFrame.data_of_data hcode]
      simp [ServerFrame.data]
    have hclassify : r.classify f.head f.payload =
        ({ r with fragment := none, carry := [] }, .ok (.text text f.head.fin)) := by
      rw [classify_of_data hin hcode, hfin]
      simp only [readData, hread, if_true]
    refine ⟨[.text text f.head.fin], ?_, ?_, ?_⟩
    · rw [accept_of_ok hclassify]
      rfl
    · exact .cons (.text (ServerFrame.isControl_of_data hcode) text) .nil
    · simp [textOf]

/-- Reading has stopped at a frame that was refused: those before it were read, and those behind it
are left. -/
structure Drained.RefusedBetween (d : Drained) (before after : List ServerFrame) : Prop where
  read : List.Forall₂ ReadAs before d.frames
  failure_eq : d.failure = some .invalidText
  rest_eq : d.rest = ServerFrame.wire after

theorem Drained.RefusedBetween.behind {d : Drained} {before after : List ServerFrame}
    (h : d.RefusedBetween before after) {f : ServerFrame} {received : Received}
    (hf : ReadAs f received) : (d.behind [received]).RefusedBetween (f :: before) after :=
  ⟨.cons hf h.read, h.failure_eq, h.rest_eq⟩

/-- A data frame is the first that leaves no text the payloads up to it could be the beginning of,
or it is final and leaves a character unfinished. The payloads stand behind what is carried. -/
structure BreaksText (carry : Bytes) (before : List ServerFrame) (bad : ServerFrame) : Prop where
  is_data : bad.head.isControl = false
  starts_before : Utf8.StartsText (carry ++ ServerFrame.data before)
  breaks : ¬ Utf8.StartsText (carry ++ ServerFrame.data (before ++ [bad])) ∨ bad.head.fin = true

theorem BreaksText.cons_of_read {carry tail : Bytes} {body : String} {f bad : ServerFrame}
    {before : List ServerFrame} (h : BreaksText tail before bad)
    (hdata : ∀ frames, ServerFrame.data (f :: frames) = f.payload ++ ServerFrame.data frames)
    (hread : carry ++ f.payload = Bytes.ofString body ++ tail) :
    BreaksText carry (f :: before) bad := by
  have hmove (frames : List ServerFrame) : carry ++ ServerFrame.data (f :: frames) =
      Bytes.ofString body ++ (tail ++ ServerFrame.data frames) := by
    rw [hdata, ← List.append_assoc, hread, List.append_assoc]
  refine ⟨h.is_data, ?_, ?_⟩
  · rw [hmove, Utf8.startsText_ofString_append_iff]
    exact h.starts_before
  · rw [List.cons_append, hmove, Utf8.startsText_ofString_append_iff]
    exact h.breaks

theorem refused_first {r r' : FrameReader} {f : ServerFrame}
    (hclassify : r.classify f.head f.payload = (r', .error .invalidText))
    (hdata : f.head.isControl = false) (hcarry : Utf8.StartsText r.carry)
    (hbreaks : ¬ Utf8.StartsText (r.carry ++ f.payload) ∨ f.head.fin = true)
    (frames : List ServerFrame) :
    (r.accept (f :: frames)).RefusedBetween [] frames ∧ BreaksText r.carry [] f := by
  have hpayload : ServerFrame.data [f] = f.payload := by simp [ServerFrame.data, hdata]
  refine ⟨?_, hdata, ?_, ?_⟩
  · rw [accept_of_error hclassify]
    exact ⟨.nil, rfl, rfl⟩
  · rw [ServerFrame.data, List.flatMap_nil, List.append_nil]
    exact hcarry
  · rw [List.nil_append, hpayload]
    exact hbreaks

theorem accept_of_not_text {begun : Bool} {frames : List ServerFrame} (h : TextFrames begun frames)
    {r : FrameReader} (hin : r.InText begun) (hcarry : Utf8.StartsText r.carry)
    (hnot : ∀ text, r.carry ++ ServerFrame.data frames ≠ Bytes.ofString text) :
    ∃ before bad after, frames = before ++ bad :: after ∧
      (r.accept frames).RefusedBetween before after ∧ BreaksText r.carry before bad := by
  induction h generalizing r with
  | @signal begun f frames hcode h ih =>
    obtain ⟨first, hclassify, hfirst, -⟩ := classify_of_signal hcode r
    rw [ServerFrame.data_of_signal hcode] at hnot
    obtain ⟨before, bad, after, rfl, hrefused, hbreaks⟩ := ih hin hcarry hnot
    refine ⟨f :: before, bad, after, rfl, ?_, ?_⟩
    · rw [accept_of_ok hclassify]
      exact hrefused.behind hfirst
    · refine ⟨hbreaks.is_data, ?_, ?_⟩
      · rw [ServerFrame.data_of_signal hcode]
        exact hbreaks.starts_before
      · rw [List.cons_append, ServerFrame.data_of_signal hcode]
        exact hbreaks.breaks
  | @fragment begun f frames hcode hfin h ih =>
    have hdata := ServerFrame.data_of_data hcode
    rw [hdata, ← List.append_assoc] at hnot
    have hclassify := classify_of_data hin hcode
    have haccounts := Utf8.accounts_read (r.carry ++ f.payload)
    -- The characters that are whole are read, and the others are left to the frames behind.
    have hlater (body : String) (tail : Bytes) (htail : Utf8.StartsText tail)
        (hread : r.carry ++ f.payload = Bytes.ofString body ++ tail)
        (hbody : r.classify f.head f.payload =
          ({ r with fragment := some .text, carry := tail }, .ok (.text body f.head.fin))) :
        ∃ before bad after, f :: frames = before ++ bad :: after ∧
          (r.accept (f :: frames)).RefusedBetween before after ∧ BreaksText r.carry before bad := by
      have hrest (text : String) : tail ++ ServerFrame.data frames ≠ Bytes.ofString text := by
        intro htext
        refine hnot (body ++ text) ?_
        rw [hread, List.append_assoc, htext, Bytes.ofString_append]
      have hbehind : InText { r with fragment := some .text, carry := tail } true := rfl
      obtain ⟨before, bad, after, rfl, hrefused, hbreaks⟩ := ih hbehind htail hrest
      refine ⟨f :: before, bad, after, rfl, ?_, hbreaks.cons_of_read hdata hread⟩
      rw [accept_of_ok hbody]
      exact hrefused.behind (.text (ServerFrame.isControl_of_data hcode) body)
    rcases hread : Utf8.read (r.carry ++ f.payload) with ⟨body, ending⟩
    rw [hread] at haccounts
    simp only [readData, hread, hfin, Bool.false_eq_true, if_false] at hclassify
    cases ending with
    | complete =>
      refine hlater body [] ⟨"", List.prefix_refl _⟩ ?_ (by rw [hclassify, hfin])
      rw [List.append_nil]
      exact haccounts
    | unfinished tail =>
      exact hlater body tail haccounts.2.startsText haccounts.1 (by rw [hclassify, hfin])
    | malformed =>
      have hbreaks : ¬ Utf8.StartsText (r.carry ++ f.payload) :=
        (Utf8.read_malformed_iff _).1 (by rw [hread])
      have hrefused := refused_first hclassify (ServerFrame.isControl_of_data hcode) hcarry
        (.inl hbreaks) frames
      exact ⟨[], f, frames, rfl, hrefused⟩
  | @last begun f hcode hfin =>
    have hclassify := classify_of_data hin hcode
    have haccounts := Utf8.accounts_read (r.carry ++ f.payload)
    rw [ServerFrame.data_of_data hcode, ServerFrame.data, List.flatMap_nil, List.append_nil] at hnot
    rcases hread : Utf8.read (r.carry ++ f.payload) with ⟨body, ending⟩
    rw [hread] at haccounts
    simp only [readData, hread, hfin, if_true] at hclassify
    -- Here an unfinished character is refused like a wrong one, since nothing can complete it.
    have hrefused {r' : FrameReader}
        (hclassify : r.classify f.head f.payload = (r', .error .invalidText)) :=
      refused_first hclassify (ServerFrame.isControl_of_data hcode) hcarry (.inr hfin) []
    cases ending with
    | complete => exact absurd haccounts (hnot body)
    | unfinished tail => exact ⟨[], f, [], rfl, hrefused hclassify⟩
    | malformed => exact ⟨[], f, [], rfl, hrefused hclassify⟩

/-- **Texts survive fragmentation.** A reader with no message in progress is given the frames of a
text message. If the payloads make up a text, every frame comes back, the bodies make up that text,
and the reader stands as if it were new. If they do not, the reader refuses the first frame that
leaves no text the payloads could be the beginning of, or else the final frame. -/
theorem drain_text_frames {r : FrameReader} (hreachable : r.Reachable) (hphase : r.phase = .header)
    (hfragment : r.fragment = none) {frames : List ServerFrame}
    (hframes : TextFrames false frames) :
    (∀ text, ServerFrame.data frames = Bytes.ofString text →
      ∃ received, r.drain (ServerFrame.wire frames) =
          { frames := received, reader := {}, rest := [] } ∧
        List.Forall₂ ReadAs frames received ∧ textOf received = text) ∧
    ((∀ text, ServerFrame.data frames ≠ Bytes.ofString text) →
      ∃ before bad after, frames = before ++ bad :: after ∧
        (r.drain (ServerFrame.wire frames)).RefusedBetween before after ∧
        BreaksText [] before bad) := by
  obtain rfl := hreachable.eq_fresh hphase hfragment
  have hbetween : InText {} false := rfl
  rw [drain_wire hphase]
  refine ⟨fun text htext => accept_of_text hframes hbetween htext, fun hnot => ?_⟩
  exact accept_of_not_text hframes hbetween ⟨"", List.prefix_refl _⟩ hnot

/-- The sign of the Euro, cut into two fragments inside its three bytes, with a Ping between. -/
def euroFrames : List ServerFrame :=
  [{ head := { fin := false, code := 1 }, form := .short, payload := [0xE2, 0x82],
     code_lt := by decide, fits := by decide, control := by decide },
   { head := { fin := true, code := 9 }, form := .short, payload := [7],
     code_lt := by decide, fits := by decide, control := by decide },
   { head := { fin := true, code := 0 }, form := .medium, payload := [0xAC],
     code_lt := by decide, fits := by decide, control := by decide }]

theorem drain_euroFrames :
    ∃ received, FrameReader.drain {} (ServerFrame.wire euroFrames) =
        { frames := received, reader := {}, rest := [] } ∧
      List.Forall₂ ReadAs euroFrames received ∧ textOf received = "€" := by
  have hframes : TextFrames false euroFrames :=
    .fragment rfl rfl (.signal (.inl rfl) (.last rfl rfl))
  exact (drain_text_frames .fresh rfl rfl hframes).1 "€" rfl

def longText : String :=
  String.ofList (List.replicate (Frame.maxPayload + 1) 'a')

theorem length_ofString_longText : (Bytes.ofString longText).length = Frame.maxPayload + 1 := by
  have hascii : ∀ c ∈ List.replicate (Frame.maxPayload + 1) 'a', c.toNat < 0x80 := by
    intro c hc
    obtain ⟨-, rfl⟩ := List.mem_replicate.1 hc
    decide
  rw [longText, Bytes.ofString_ofList_of_ascii hascii, List.length_map, List.length_replicate]

/-- The frame of a text is refused as soon as its length is read, if that is more than a frame may
carry. -/
theorem drain_of_long_payload {payload : Bytes} (hlong : payload.length > Frame.maxPayload)
    (hlt : payload.length < 256 ^ 8) :
    FrameReader.drain {} (0x81 :: 127 :: Bytes.ofNat 8 payload.length ++ payload) =
      { failure := some .tooLong
        reader := { phase := .length64 { fin := true, code := 1 } }
        rest := payload } := by
  have hheader : FrameReader.step {} (0x81 :: 127 :: Bytes.ofNat 8 payload.length ++ payload) =
      .again { phase := .length64 { fin := true, code := 1 } }
        (Bytes.ofNat 8 payload.length ++ payload) := rfl
  have htake := Bytes.take?_length_append (Bytes.ofNat 8 payload.length) payload
  rw [Bytes.length_ofNat] at htake
  have hlength : FrameReader.step { phase := .length64 { fin := true, code := 1 } }
      (Bytes.ofNat 8 payload.length ++ payload) =
        .answer (.error .tooLong) { phase := .length64 { fin := true, code := 1 } } payload := by
    simp only [step, htake, Bytes.toNat_ofNat hlt, if_pos hlong]
  rw [drain_eq, decode_of_again hheader, decode_of_answer hlength]
  rfl

theorem drain_of_bad_header {r : FrameReader} (hphase : r.phase = .header) {first second : UInt8}
    {e : Error} (h : readHeader first second = .error e) (rest : Bytes) :
    r.drain (first :: second :: rest) = { failure := some e, reader := r, rest } := by
  have hstep : r.step (first :: second :: rest) = .answer (.error e) r rest := by
    simp only [step, hphase, h]
  rw [drain_eq, decode_of_answer hstep]
  rfl

def letterFrame : ServerFrame :=
  { head := { fin := false, code := 1 }, form := .short, payload := [97],
    code_lt := by decide, fits := by decide, control := by decide }

/-- Behind the first fragment of a text, a frame whose header is refused ends the reading. -/
theorem failure_behind_letterFrame {first second : UInt8} {e : Error}
    (h : readHeader first second = .error e) (rest : Bytes) :
    (FrameReader.drain {} (letterFrame.bytes ++ first :: second :: rest)).failure = some e := by
  have hletter : FrameReader.drain {} letterFrame.bytes =
      { frames := [.text "a" false], reader := { fragment := some .text }, rest := [] } := by
    rw [← List.append_nil letterFrame.bytes]
    exact drain_wire rfl [letterFrame]
  have hphase : ({ fragment := some .text } : FrameReader).phase = .header := rfl
  rw [drain_append, hletter, Drained.resume, List.nil_append, drain_of_bad_header hphase h]
  rfl

/-- **Frames that do not survive.** A text that fills more than a frame may carry, in one final
frame, does not come back; nor does one between whose fragments there is a Ping of 126 bytes, or one
that is not final. -/
theorem drain_frames_refused :
    ((FrameReader.drain {} (0x81 :: 127 :: Bytes.ofNat 8 (Bytes.ofString longText).length ++
        Bytes.ofString longText)).frames = [] ∧
      (FrameReader.drain {} (0x81 :: 127 :: Bytes.ofNat 8 (Bytes.ofString longText).length ++
        Bytes.ofString longText)).failure = some .tooLong) ∧
    (FrameReader.drain {} (letterFrame.bytes ++
      0x89 :: 126 :: (Bytes.ofNat 2 126 ++ List.replicate 126 0 ++ [0x80, 1, 98]))).failure =
        some .longControl ∧
    (FrameReader.drain {} (letterFrame.bytes ++ 0x09 :: 0 :: [0x80, 1, 98])).failure =
      some .fragmentedControl := by
  have hlong : (Bytes.ofString longText).length > Frame.maxPayload := by
    rw [length_ofString_longText]
    exact Nat.lt_succ_self _
  have hlt : (Bytes.ofString longText).length < 256 ^ 8 := by
    rw [length_ofString_longText]
    decide
  rw [drain_of_long_payload hlong hlt]
  exact ⟨⟨rfl, rfl⟩, failure_behind_letterFrame rfl _, failure_behind_letterFrame rfl _⟩

end FrameReader

end WebClient
