import WebClient.Frame.Reader
import WebClient.Proofs.Text.Utf8

/-!
# What a reader of frames carries

A fragment of a text may end inside a character, and the reader carries the bytes of that character
to the next fragment. Wherever a reader may come to stand, also behind errors, it carries something
only while a text is in progress, and then it is the beginning of one character.
-/

namespace WebClient.FrameReader

/-- The readers that calls lead to, whatever stands in the buffer. -/
inductive Reachable : FrameReader → Prop
  | fresh : Reachable {}
  | decode {r : FrameReader} (h : Reachable r) (buffer : Bytes) :
      Reachable (r.decode buffer).reader

/-- What is carried is the beginning of a character, and a text is in progress. -/
def CarriesText (r : FrameReader) : Prop :=
  r.carry = [] ∨ r.fragment = some .text ∧ Utf8.StartsChar r.carry

theorem carry_eq_nil {r : FrameReader} (h : r.CarriesText) (hfragment : r.fragment ≠ some .text) :
    r.carry = [] :=
  h.resolve_right fun hcarry => hfragment hcarry.1

theorem carriesText_readData {r : FrameReader} {kind : MessageKind}
    (h : kind = .binary → r.carry = []) (fin : Bool) (payload : Bytes) :
    (readData { r with fragment := if fin then none else some kind } kind fin
      payload).1.CarriesText := by
  cases kind with
  | binary => exact .inl (h rfl)
  | text =>
    have haccounts := Utf8.accounts_read (r.carry ++ payload)
    simp only [readData]
    split
    · exact .inl rfl
    · exact .inl rfl
    · next body tail hread =>
      rw [hread] at haccounts
      cases fin with
      | true => exact .inl rfl
      | false => exact .inr ⟨rfl, haccounts.2⟩

theorem carriesText_classify {r : FrameReader} (h : r.CarriesText) (head : FrameHead)
    (payload : Bytes) : (r.classify head payload).1.CarriesText := by
  have hstart (kind : MessageKind) :
      (r.startMessage kind head.fin payload).1.CarriesText := by
    unfold startMessage
    split
    · exact h
    · next hnone =>
      have hcarry : r.carry = [] := carry_eq_nil h fun htext => hnone (by rw [htext]; rfl)
      exact carriesText_readData (fun _ => hcarry) head.fin payload
  have hcontinue : (r.continueMessage head.fin payload).1.CarriesText := by
    unfold continueMessage
    split
    · exact h
    · next kind hkind =>
      refine carriesText_readData (fun hbinary => carry_eq_nil h ?_) head.fin payload
      rw [hkind, hbinary]
      decide
  -- Control frames and unknown opcodes leave the reader as it is.
  unfold classify
  split
  all_goals first | exact h | exact hstart _ | exact hcontinue

def Step.reader : Step → FrameReader
  | .again r _ => r
  | .answer _ r _ => r

theorem carriesText_step {r : FrameReader} (h : r.CarriesText) (buffer : Bytes) :
    (r.step buffer).reader.CarriesText := by
  unfold step
  split
  · split
    · split <;> exact h
    · exact h
  · split <;> exact h
  · split
    · exact h
    · dsimp only
      split <;> exact h
  · split
    · exact h
    · split
      · exact h
      · exact carriesText_classify (r := { r with phase := .header }) h _ _

/-- What every step keeps, a call keeps. -/
theorem keeps_decode {P : FrameReader → Prop}
    (hstep : ∀ {r : FrameReader} (buffer : Bytes), P r → P (r.step buffer).reader)
    {r : FrameReader} (h : P r) (buffer : Bytes) : P (r.decode buffer).reader := by
  fun_induction decode r buffer with
  | case1 r buffer result r' rest hs =>
    have hkept := hstep buffer h
    rwa [hs] at hkept
  | case2 r buffer r' rest hs ih =>
    have hkept := hstep buffer h
    rw [hs] at hkept
    exact ih hkept

theorem carriesText_decode {r : FrameReader} (h : r.CarriesText) (buffer : Bytes) :
    (r.decode buffer).reader.CarriesText :=
  keeps_decode (P := CarriesText) (fun buffer h => carriesText_step h buffer) h buffer

/-- **Only text is carried.** -/
theorem Reachable.carriesText {r : FrameReader} (h : Reachable r) : r.CarriesText := by
  induction h with
  | fresh => exact .inl rfl
  | decode h buffer ih => exact carriesText_decode ih buffer

/-- Between messages a reader stands as if it were new. -/
theorem Reachable.eq_fresh {r : FrameReader} (h : Reachable r) (hphase : r.phase = .header)
    (hfragment : r.fragment = none) : r = {} := by
  have hcarry : r.carry = [] := carry_eq_nil h.carriesText (by simp [hfragment])
  obtain ⟨phase, fragment, carry⟩ := r
  obtain rfl : phase = .header := hphase
  obtain rfl : fragment = none := hfragment
  obtain rfl : carry = [] := hcarry
  rfl

end WebClient.FrameReader
