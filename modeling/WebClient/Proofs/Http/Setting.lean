import Mathlib.Data.List.Induction
import WebClient.Proofs.Http.Headers

/-!
# Setting fields

Fields that are set one after the other behave as a map from names to values that remembers an
order, whichever names are set and however they are spelled. No name stands twice
(`Distinct.setAll`), a name has the value that it was set to last (`get?_setAll`), and the names
stand where and as they were first set (`names_setAll_nil`).
-/

namespace WebClient.Http

/-- Some names, each of them once, where and as it is first spelled. -/
def firstSpellings (names : List String) : List String :=
  names.eraseDupsBy Text.eqIgnoringCase

theorem firstSpellings_concat (names : List String) (name : String) :
    firstSpellings (names ++ [name]) =
      if (firstSpellings names).any (Text.eqIgnoringCase name) then firstSpellings names
      else firstSpellings names ++ [name] := by
  -- The names that have been kept so far are the accumulator of the loop.
  suffices h : ∀ kept, List.eraseDupsBy.loop Text.eqIgnoringCase (names ++ [name]) kept =
      if (List.eraseDupsBy.loop Text.eqIgnoringCase names kept).any (Text.eqIgnoringCase name) then
        List.eraseDupsBy.loop Text.eqIgnoringCase names kept
      else List.eraseDupsBy.loop Text.eqIgnoringCase names kept ++ [name] from h []
  induction names with
  | nil =>
    intro kept
    simp only [List.nil_append, List.eraseDupsBy.loop, List.any_reverse]
    cases kept.any (Text.eqIgnoringCase name) <;> simp
  | cons first names ih =>
    intro kept
    rw [List.cons_append, List.eraseDupsBy.loop, List.eraseDupsBy.loop]
    by_cases hkept : kept.any (Text.eqIgnoringCase first) = true
    · simpa only [hkept] using ih kept
    · simpa only [hkept] using ih (first :: kept)

namespace Headers

def names (headers : Headers) : List String :=
  headers.map (·.name)

@[simp] theorem names_append (headers more : Headers) :
    Headers.names (headers ++ more) = headers.names ++ more.names :=
  List.map_append

theorem any_names (headers : Headers) (name : String) :
    headers.names.any (Text.eqIgnoringCase name) = headers.has name := by
  simp only [names, has, List.any_map]
  exact List.any_congr rfl fun field => Text.eqIgnoringCase_comm name field.name

/-- No two fields have the same name. -/
def Distinct (headers : Headers) : Prop :=
  headers.Pairwise fun a b => a.isNamed b.name = false

variable {headers : Headers} {name : String}

theorem distinct_iff_names : headers.Distinct ↔
    headers.names.Pairwise fun a b => Text.eqIgnoringCase a b = false := by
  rw [names, List.pairwise_map]
  rfl

theorem Distinct.has_tail {field : Field} {rest : Headers} (h : Distinct (field :: rest))
    (hnamed : field.isNamed name = true) : rest.has name = false := by
  refine List.any_eq_false.2 fun other hother hsame => ?_
  rw [Field.isNamed, Text.eqIgnoringCase_comm] at hsame
  have hboth : field.isNamed other.name = true := Text.eqIgnoringCase_trans hnamed hsame
  exact Bool.false_ne_true (((List.pairwise_cons.1 h).1 other hother).symm.trans hboth)

theorem Distinct.values_eq (h : headers.Distinct) (name : String) :
    headers.values name = (headers.get? name).toList := by
  induction headers with
  | nil => rfl
  | cons field rest ih =>
    rw [values_cons, get?_cons]
    cases hnamed : field.isNamed name with
    | false => exact ih (List.pairwise_cons.1 h).2
    | true =>
      rw [if_pos rfl, if_pos rfl, values_eq_nil (h.has_tail hnamed)]
      rfl

theorem Distinct.get?_of_mem (h : headers.Distinct) {field : Field} (hmem : field ∈ headers) :
    headers.get? field.name = some field.value := by
  induction headers with
  | nil => nomatch hmem
  | cons first rest ih =>
    obtain ⟨hfirst, hrest⟩ := List.pairwise_cons.1 h
    rcases List.mem_cons.1 hmem with rfl | hmem
    · exact get?_cons_of_isNamed (isNamed_self ..) rest
    · rw [get?_cons_of_not (hfirst field hmem), ih hrest hmem]

/-! ### One field set -/

theorem names_set (headers : Headers) (name value : String) :
    (headers.set name value).names =
      if headers.has name then headers.names else headers.names ++ [name] := by
  induction headers with
  | nil => rfl
  | cons field rest ih =>
    rw [Headers.set]
    cases hnamed : field.isNamed name with
    | true => simp [names, has, hnamed]
    | false =>
      have hhas : Headers.has (field :: rest) name = Headers.has rest name := by
        simp [has, hnamed]
      rw [if_neg Bool.false_ne_true, hhas]
      change field.name :: (Headers.set rest name value).names = _
      rw [ih]
      split <;> rfl

theorem get?_set (headers : Headers) (name value other : String) :
    (headers.set name value).get? other =
      if Text.eqIgnoringCase name other then some value else headers.get? other := by
  induction headers with
  | nil => exact get?_cons ⟨name, value⟩ [] other
  | cons field rest ih =>
    rw [Headers.set]
    cases hnamed : field.isNamed name with
    | true =>
      -- The field keeps its own spelling, which is looked up like the name.
      have hsame : field.isNamed other = Text.eqIgnoringCase name other := by
        rw [Field.isNamed, Text.eqIgnoringCase, Text.eqIgnoringCase_iff.1 hnamed]
        rfl
      rw [if_pos rfl, get?_cons, get?_cons, hsame]
      change (if field.isNamed other then _ else _) = _
      rw [hsame]
      split <;> rfl
    | false =>
      rw [if_neg Bool.false_ne_true, get?_cons, get?_cons, ih]
      cases hother : field.isNamed other with
      | false => rfl
      | true =>
        have hnot : ¬ Text.eqIgnoringCase name other = true := by
          intro hsame
          rw [Text.eqIgnoringCase_comm] at hsame
          exact Bool.false_ne_true (hnamed.symm.trans (Text.eqIgnoringCase_trans hother hsame))
        rw [if_neg hnot, if_neg hnot]

theorem Distinct.set (h : headers.Distinct) (name value : String) :
    (headers.set name value).Distinct := by
  rw [distinct_iff_names] at h ⊢
  rw [names_set]
  cases hhas : headers.has name with
  | true => exact h
  | false =>
    rw [if_neg Bool.false_ne_true]
    refine List.pairwise_append.2 ⟨h, List.pairwise_singleton .., fun a ha b hb => ?_⟩
    obtain rfl := List.mem_singleton.1 hb
    rw [← any_names, List.any_eq_false] at hhas
    rw [Text.eqIgnoringCase_comm]
    exact eq_false_of_ne_true (hhas a ha)

/-! ### Fields set one after the other -/

theorem setAll_append (headers fields more : Headers) :
    headers.setAll (fields ++ more) = (headers.setAll fields).setAll more :=
  List.foldl_append

theorem Distinct.setAll (h : headers.Distinct) (fields : Headers) :
    (headers.setAll fields).Distinct := by
  induction fields generalizing headers with
  | nil => exact h
  | cons field fields ih => exact ih (h.set field.name field.value)

theorem get?_setAll (headers fields : Headers) (name : String) :
    (headers.setAll fields).get? name =
      (fields.values name).getLast?.or (headers.get? name) := by
  induction fields generalizing headers with
  | nil => rfl
  | cons field fields ih =>
    change ((headers.set field.name field.value).setAll fields).get? name = _
    rw [ih, get?_set, values_cons]
    change (Headers.values fields name).getLast?.or
      (if field.isNamed name then some field.value else headers.get? name) = _
    split
    · rw [List.getLast?_cons]
      cases (Headers.values fields name).getLast? <;> rfl
    · rfl

theorem names_setAll_nil (fields : Headers) :
    (Headers.setAll [] fields).names = firstSpellings fields.names := by
  -- From the back, since whether the last name is new depends on all names before it.
  induction fields using List.reverseRecOn with
  | nil => rfl
  | append_singleton fields field ih =>
    rw [setAll_append, names_append]
    change ((Headers.setAll [] fields).set field.name field.value).names =
      firstSpellings (Headers.names fields ++ [field.name])
    rw [names_set, firstSpellings_concat, ← any_names, ih]

theorem names_prefix_setAll (headers fields : Headers) :
    headers.names <+: (headers.setAll fields).names := by
  induction fields generalizing headers with
  | nil => exact List.prefix_rfl
  | cons field fields ih =>
    refine List.IsPrefix.trans ?_ (ih (headers.set field.name field.value))
    rw [names_set]
    split
    · exact List.prefix_rfl
    · exact List.prefix_append ..

/-- A field of a name that none before it has stands behind the names that were set before it. -/
theorem exists_setAll_nil_eq (before after : Headers) {field : Field}
    (hfirst : before.has field.name = false) :
    ∃ (front : Headers) (value : String) (back : Headers),
      Headers.setAll [] (before ++ field :: after) = front ++ ⟨field.name, value⟩ :: back ∧
      front.names = firstSpellings before.names ∧ front.has field.name = false ∧
      back.has field.name = false := by
  have hhas : (Headers.setAll [] before).has field.name = false := by
    rw [has_eq_isSome_get?, get?_setAll, values_eq_nil hfirst]
    rfl
  have hprefix := names_prefix_setAll
    ((Headers.setAll [] before).set field.name field.value) after
  rw [names_set, hhas, if_neg Bool.false_ne_true, names_setAll_nil] at hprefix
  obtain ⟨later, hnames⟩ := hprefix
  rw [List.append_assoc, eq_comm, names, List.map_eq_append_iff] at hnames
  obtain ⟨front, rest, heq, hfront, hrest⟩ := hnames
  obtain ⟨own, back, rfl, hown, -⟩ := List.map_eq_cons_iff.1 hrest
  have hset : Headers.setAll [] (before ++ field :: after) = front ++ own :: back := by
    rw [setAll_append]
    exact heq
  have hdistinct : (Headers.setAll [] (before ++ field :: after)).Distinct :=
    Distinct.setAll .nil _
  rw [hset] at hdistinct ⊢
  obtain ⟨-, hback, hcross⟩ := List.pairwise_append.1 hdistinct
  have hfront' : Headers.has front own.name = false :=
    List.any_eq_false.2 fun other hother => by simp [hcross other hother own (by simp)]
  rw [← hown]
  exact ⟨front, own.value, back, rfl, hfront, hfront', Distinct.has_tail hback (isNamed_self ..)⟩

end Headers

end WebClient.Http
