/-!
# Letter case

Scheme names, hosts, header names and list elements are compared without regard to the case of the
26 ASCII letters; every other character, an accented letter included, equals only itself. Equality
up to case is equality of the lower-cased texts, hence an equivalence relation.
-/

namespace WebClient.Text

/-- The text with its ASCII capital letters made small. -/
def lower (s : String) : String :=
  s.map Char.toLower

def eqIgnoringCase (a b : String) : Bool :=
  lower a == lower b

theorem eqIgnoringCase_iff {a b : String} : eqIgnoringCase a b = true ↔ lower a = lower b := by
  simp [eqIgnoringCase]

@[simp] theorem eqIgnoringCase_refl (a : String) : eqIgnoringCase a a = true := by
  simp [eqIgnoringCase]

theorem eqIgnoringCase_comm (a b : String) : eqIgnoringCase a b = eqIgnoringCase b a := by
  simp [eqIgnoringCase, Bool.beq_comm]

theorem eqIgnoringCase_trans {a b c : String} (ab : eqIgnoringCase a b = true)
    (bc : eqIgnoringCase b c = true) : eqIgnoringCase a c = true := by
  rw [eqIgnoringCase_iff] at *
  exact ab.trans bc

end WebClient.Text
