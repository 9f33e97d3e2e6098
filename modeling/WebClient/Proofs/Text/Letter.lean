import Mathlib.Data.String.Basic
import WebClient.Text.Letter
import WebClient.Text.Numeral

/-!
# Letters in either case

A capital letter and its small form differ in little: they are digits of the same value, and neither
of them is any of the marks that separate the parts of a text. What looks at no more than this does
not see the case of letters.
-/

namespace WebClient.Text

@[simp] theorem toList_lower (s : String) : (lower s).toList = s.toList.map Char.toLower := by
  simp [lower]

theorem eqIgnoringCase_iff_toList {a b : String} :
    eqIgnoringCase a b = true ↔ a.toList.map Char.toLower = b.toList.map Char.toLower := by
  rw [eqIgnoringCase_iff, ← String.toList_inj, toList_lower, toList_lower]

/-- What holds of every character and itself, and of the 26 capital letters and their small forms,
holds of every character and its small form. -/
theorem forall_toLower {P : Char → Char → Prop} (hsame : ∀ c, P c c)
    (hcapital : ∀ n : Fin 26, P (Char.ofNat (65 + n)) (Char.ofNat (97 + n))) (c : Char) :
    P c c.toLower := by
  by_cases hupper : 'A'.val ≤ c.val ∧ c.val ≤ 'Z'.val
  · have hrange : 65 ≤ c.toNat ∧ c.toNat ≤ 90 :=
      ⟨UInt32.le_iff_toNat_le.1 hupper.1, UInt32.le_iff_toNat_le.1 hupper.2⟩
    have hsmall : ∀ n : Fin 26, (Char.ofNat (65 + n)).toLower = Char.ofNat (97 + n) := by decide
    have hc : Char.ofNat (65 + (c.toNat - 65)) = c := by
      rw [Nat.add_sub_cancel' hrange.1, Char.ofNat_toNat]
    have hn : c.toNat - 65 < 26 := by omega
    have hcase := hcapital ⟨c.toNat - 65, hn⟩
    rwa [← hsmall, hc] at hcase
  · have hsmall : c.toLower = c := dif_neg hupper
    rw [hsmall]
    exact hsame c

theorem digitValue?_toLower (base : Nat) (c : Char) :
    digitValue? base c.toLower = digitValue? base c := by
  have hcapital : ∀ n : Fin 26, digitValue? base (Char.ofNat (97 + n)) =
      digitValue? base (Char.ofNat (65 + n)) := by
    intro n
    unfold digitValue?
    refine congrArg (Option.filter _) ?_
    revert n
    decide
  exact forall_toLower (P := fun c small => digitValue? base small = digitValue? base c)
    (fun _ => rfl) hcapital c

theorem digitsFrom?_toLower (base largest value : Nat) (cs : List Char) :
    digitsFrom? base largest value (cs.map Char.toLower) = digitsFrom? base largest value cs := by
  induction cs generalizing value with
  | nil => rfl
  | cons c cs ih => simp only [List.map_cons, digitsFrom?, digitValue?_toLower, ih]

def IsMark (mark : Char) : Prop :=
  ∀ n : Fin 26, Char.ofNat (65 + n) ≠ mark ∧ Char.ofNat (97 + n) ≠ mark

instance (mark : Char) : Decidable (IsMark mark) :=
  inferInstanceAs (Decidable (∀ _ : Fin 26, _))

theorem toLower_eq_iff {mark : Char} (hmark : IsMark mark) (c : Char) :
    c.toLower = mark ↔ c = mark :=
  forall_toLower (P := fun c small => small = mark ↔ c = mark) (fun _ => Iff.rfl)
    (fun n => iff_of_false (hmark n).2 (hmark n).1) c

theorem utf8Len_toLower (cs : List Char) :
    String.utf8Len (cs.map Char.toLower) = String.utf8Len cs := by
  have hsize (c : Char) : c.toLower.utf8Size = c.utf8Size :=
    forall_toLower (P := fun c small => small.utf8Size = c.utf8Size) (fun _ => rfl) (by decide) c
  induction cs with
  | nil => rfl
  | cons c cs ih => rw [List.map_cons, String.utf8Len_cons, String.utf8Len_cons, hsize, ih]

theorem utf8ByteSize_lower (s : String) : (lower s).utf8ByteSize = s.utf8ByteSize := by
  rw [← String.ofList_toList (s := lower s), ← String.ofList_toList (s := s),
    String.utf8ByteSize_ofList, String.utf8ByteSize_ofList, String.ofList_toList, toList_lower,
    utf8Len_toLower]

theorem splitOn_toLower {mark : Char} (hmark : IsMark mark) (cs : List Char) :
    (cs.map Char.toLower).splitOn mark = (cs.splitOn mark).map (·.map Char.toLower) := by
  unfold List.splitOn
  induction cs with
  | nil => rfl
  | cons c cs ih =>
    have hhere : (c.toLower == mark) = (c == mark) := by
      rw [Bool.eq_iff_iff]
      simp [toLower_eq_iff hmark]
    rw [List.map_cons, List.splitOnP_cons_eq_if_modifyHead, List.splitOnP_cons_eq_if_modifyHead,
      hhere, ih]
    split
    · rfl
    · cases List.splitOnP (· == mark) cs <;> rfl

end WebClient.Text
