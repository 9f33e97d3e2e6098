/-!
# Cutting text

Ways to cut a list of characters in two: at the first or the last place where a character stands,
and at the first occurrence of a marker. A cut loses nothing but the separator itself, and the side
it says has no separator has none.
-/

namespace WebClient.Text

/-- What stands before and after the first occurrence of `sep`. -/
def splitFirst? (sep : Char) (cs : List Char) : Option (List Char × List Char) :=
  match cs.dropWhile (· ≠ sep) with
  | [] => none
  | _ :: after => some (cs.takeWhile (· ≠ sep), after)

def splitLast? (sep : Char) (cs : List Char) : Option (List Char × List Char) :=
  (splitFirst? sep cs.reverse).map fun (after, before) => (before.reverse, after.reverse)

/-- `splitMarker?` for a text of which the characters `seen`, latest first, have been read. -/
def splitMarkerFrom? (marker seen : List Char) : List Char → Option (List Char × List Char)
  | [] => if marker = [] then some (seen.reverse, []) else none
  | c :: cs =>
    match marker.isPrefixOf? (c :: cs) with
    | some after => some (seen.reverse, after)
    | none => splitMarkerFrom? marker (c :: seen) cs

def splitMarker? (marker cs : List Char) : Option (List Char × List Char) :=
  splitMarkerFrom? marker [] cs

theorem splitFirst?_cons (sep c : Char) (cs : List Char) :
    splitFirst? sep (c :: cs) =
      if c = sep then some ([], cs)
      else (splitFirst? sep cs).map fun (before, after) => (c :: before, after) := by
  by_cases h : c = sep
  · simp [splitFirst?, h]
  · simp only [splitFirst?, List.dropWhile_cons, List.takeWhile_cons, h, ne_eq, not_false_eq_true,
      decide_true, if_true, if_false]
    split <;> simp

theorem splitFirst?_eq_some_iff {sep : Char} {cs before after : List Char} :
    splitFirst? sep cs = some (before, after) ↔ cs = before ++ sep :: after ∧ sep ∉ before := by
  induction cs generalizing before with
  | nil => simp [splitFirst?]
  | cons c cs ih =>
    rw [splitFirst?_cons]
    by_cases h : c = sep
    · subst h
      cases before with
      | nil => simp [eq_comm]
      | cons b bs => simp +contextual [eq_comm]
    · cases before with
      | nil => simp [h]
      | cons b bs =>
        simp only [h, if_false, Option.map_eq_some_iff, Prod.exists, Prod.mk.injEq, List.cons.injEq,
          List.cons_append, List.mem_cons, not_or]
        constructor
        · rintro ⟨b', a', hs, ⟨rfl, rfl⟩, rfl⟩
          obtain ⟨rfl, hne⟩ := ih.1 hs
          exact ⟨⟨rfl, rfl⟩, Ne.symm h, hne⟩
        · rintro ⟨⟨rfl, rfl⟩, -, hne⟩
          exact ⟨bs, after, ih.2 ⟨rfl, hne⟩, ⟨rfl, rfl⟩, rfl⟩

theorem splitFirst?_eq_none_iff {sep : Char} {cs : List Char} :
    splitFirst? sep cs = none ↔ sep ∉ cs := by
  induction cs with
  | nil => simp [splitFirst?]
  | cons c cs ih =>
    rw [splitFirst?_cons]
    by_cases h : c = sep
    · simp [h]
    · simp [h, ih, Ne.symm h]

end WebClient.Text
