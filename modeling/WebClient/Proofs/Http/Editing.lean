import WebClient.Http.Request
import WebClient.Proofs.Http.Setting

/-!
# Setting fields and taking them out

Whoever makes up a request sets fields and takes them out again, under any spelling of their names
and in any order. Two functions of the edits so far say what has become of a name: whether it was
set since it was last erased, and where that was (`latest?`, `insertions`). The fields are a map
with these names and values (`get?_editAll`, `names_editAll`), and `fields_of_edits` says so in
terms of the edits alone.

What a single edit leaves as it is does not depend on how the fields came about, so it is stated for
all lists of fields, those in which a name stands twice included.
-/

namespace WebClient.Http

inductive Edit where
  | set (name value : String)
  | erase (name : String)

namespace Edit

def name : Edit → String
  | set name _ | erase name => name

/-- The value that a name has behind the edit, if it has one. -/
def value? : Edit → Option String
  | set _ value => some value
  | erase _ => none

def isOn (edit : Edit) (name : String) : Bool :=
  Text.eqIgnoringCase edit.name name

/-- The edit takes a name out. -/
def erases : Edit → String → Bool
  | set _ _, _ => false
  | erase erased, name => Text.eqIgnoringCase erased name

/-- The last of some edits that is on a name. -/
def latest? (edits : List Edit) (name : String) : Option Edit :=
  edits.reverse.find? (·.isOn name)

/-- The name has been set, and not erased since. -/
def stands (edits : List Edit) (name : String) : Bool :=
  ((latest? edits name).bind value?).isSome

/-- The names that are set where they do not stand, behind the edits `before`, and not erased
afterwards. -/
def insertionsFrom (before : List Edit) : List Edit → List String
  | [] => []
  | edit :: after =>
    let later := insertionsFrom (before ++ [edit]) after
    match edit with
    | set name _ =>
      if stands before name || after.any (·.erases name) then later else name :: later
    | erase _ => later

/-- The names that stand behind some edits, each where and as it was first set since it was last
erased. -/
def insertions (edits : List Edit) : List String :=
  insertionsFrom [] edits

end Edit

namespace Headers

def edit (headers : Headers) : Edit → Headers
  | .set name value => headers.set name value
  | .erase name => headers.erase name

def editAll (headers : Headers) (edits : List Edit) : Headers :=
  edits.foldl edit headers

end Headers

def Request.edit (request : Request) : Edit → Request
  | .set name value => request.setHeader name value
  | .erase name => request.eraseHeader name

def Request.editAll (request : Request) (edits : List Edit) : Request :=
  edits.foldl edit request

theorem Request.editAll_eq (request : Request) (edits : List Edit) :
    request.editAll edits = { request with headers := request.headers.editAll edits } := by
  induction edits generalizing request with
  | nil => rfl
  | cons edit edits ih =>
    change (request.edit edit).editAll edits = _
    rw [ih]
    cases edit <;> rfl

/-! ### What was done to a name -/

namespace Edit

theorem latest?_append_singleton (edits : List Edit) (edit : Edit) (name : String) :
    latest? (edits ++ [edit]) name = if edit.isOn name then some edit else latest? edits name := by
  simp only [latest?, List.reverse_append, List.reverse_singleton, List.singleton_append,
    List.find?_cons]
  cases edit.isOn name <;> rfl

theorem latest?_eq_some_iff {edits : List Edit} {edit : Edit} {name : String} :
    latest? edits name = some edit ↔ ∃ before after, edits = before ++ edit :: after ∧
      edit.isOn name = true ∧ ∀ other ∈ after, other.isOn name = false := by
  rw [latest?, List.find?_eq_some_iff_append]
  constructor
  · rintro ⟨hname, after, before, hedits, hafter⟩
    refine ⟨before.reverse, after.reverse, ?_, hname, fun other hother => ?_⟩
    · rw [← List.reverse_inj, hedits]
      simp
    · simpa using hafter other (List.mem_reverse.1 hother)
  · rintro ⟨before, after, rfl, hname, hafter⟩
    refine ⟨hname, after.reverse, before.reverse, by simp, fun other hother => ?_⟩
    simpa using hafter other (List.mem_reverse.1 hother)

theorem insertionsFrom_concat_set (before edits : List Edit) (name value : String) :
    insertionsFrom before (edits ++ [set name value]) =
      insertionsFrom before edits ++ if stands (before ++ edits) name then [] else [name] := by
  induction edits generalizing before with
  | nil => simp [insertionsFrom]
  | cons edit after ih =>
    have hlater := ih (before ++ [edit])
    rw [List.append_assoc, List.singleton_append] at hlater
    cases edit with
    | erase erased => exact hlater
    | set first _ =>
      -- A name that is set last does not erase any name before it.
      have hany : (after ++ [set name value]).any (·.erases first) =
          after.any (·.erases first) := by simp [erases]
      rw [List.cons_append, insertionsFrom, insertionsFrom]
      rw [hany, hlater]
      split <;> rfl

theorem insertionsFrom_concat_erase (before edits : List Edit) (name : String) :
    insertionsFrom before (edits ++ [erase name]) =
      (insertionsFrom before edits).filter fun kept => !Text.eqIgnoringCase name kept := by
  induction edits generalizing before with
  | nil => rfl
  | cons edit after ih =>
    have hlater := ih (before ++ [edit])
    cases edit with
    | erase erased => exact hlater
    | set first _ =>
      have hany : (after ++ [erase name]).any (·.erases first) =
          (after.any (·.erases first) || Text.eqIgnoringCase name first) := by simp [erases]
      rw [List.cons_append, insertionsFrom, insertionsFrom]
      rw [hany, hlater, ← Bool.or_assoc]
      cases (stands before first || after.any (·.erases first)) with
      | true => rfl
      | false =>
        cases hsame : Text.eqIgnoringCase name first with
        | true => simp [hsame]
        | false => simp [hsame]

end Edit

namespace Headers

variable {headers : Headers}

/-! ### One field taken out -/

theorem names_erase (headers : Headers) (name : String) :
    (headers.erase name).names =
      headers.names.filter fun kept => !Text.eqIgnoringCase name kept := by
  rw [names, erase, names, List.filter_map]
  refine congrArg _ (List.filter_congr fun field _ => ?_)
  rw [Field.isNamed, Text.eqIgnoringCase_comm]
  rfl

theorem get?_erase (headers : Headers) (name other : String) :
    (headers.erase name).get? other =
      if Text.eqIgnoringCase name other then none else headers.get? other := by
  split
  · next hsame =>
    have hhas : (headers.erase name).has other = false := by
      rw [← has_congr (Text.eqIgnoringCase_iff.1 hsame), has_erase]
    exact get?_eq_none hhas
  · next hnot =>
    have hne : Text.lower name ≠ Text.lower other := fun heq =>
      hnot (Text.eqIgnoringCase_iff.2 heq)
    rw [get?_eq_head?_values, values_erase hne, ← get?_eq_head?_values]

theorem Distinct.erase (h : headers.Distinct) (name : String) : (headers.erase name).Distinct :=
  List.Pairwise.filter _ h

/-! ### Fields edited one after the other -/

theorem editAll_append (headers : Headers) (edits more : List Edit) :
    headers.editAll (edits ++ more) = (headers.editAll edits).editAll more :=
  List.foldl_append

theorem get?_editAll (edits : List Edit) (name : String) :
    (Headers.editAll [] edits).get? name = (Edit.latest? edits name).bind Edit.value? := by
  induction edits using List.reverseRecOn with
  | nil => rfl
  | append_singleton edits last ih =>
    rw [editAll_append, Edit.latest?_append_singleton]
    cases last with
    | set set value =>
      change ((Headers.editAll [] edits).set set value).get? name = _
      rw [get?_set, ih, Edit.isOn]
      change _ = Option.bind (if Text.eqIgnoringCase set name then _ else _) _
      split <;> rfl
    | erase erased =>
      change ((Headers.editAll [] edits).erase erased).get? name = _
      rw [get?_erase, ih, Edit.isOn]
      change _ = Option.bind (if Text.eqIgnoringCase erased name then _ else _) _
      split <;> rfl

theorem has_editAll (edits : List Edit) (name : String) :
    (Headers.editAll [] edits).has name = Edit.stands edits name := by
  rw [has_eq_isSome_get?, get?_editAll]
  rfl

theorem names_editAll (edits : List Edit) :
    (Headers.editAll [] edits).names = Edit.insertions edits := by
  induction edits using List.reverseRecOn with
  | nil => rfl
  | append_singleton edits last ih =>
    rw [editAll_append, Edit.insertions]
    cases last with
    | set name value =>
      change ((Headers.editAll [] edits).set name value).names = _
      rw [Edit.insertionsFrom_concat_set, names_set, has_editAll, ih]
      change _ = Edit.insertions edits ++ _
      split <;> simp_all
    | erase name =>
      change ((Headers.editAll [] edits).erase name).names = _
      rw [Edit.insertionsFrom_concat_erase, names_erase, ih]
      rfl

theorem Distinct.editAll (h : headers.Distinct) (edits : List Edit) :
    (headers.editAll edits).Distinct := by
  induction edits generalizing headers with
  | nil => exact h
  | cons edit edits ih =>
    cases edit with
    | set name value => exact ih (h.set name value)
    | erase name => exact ih (h.erase name)

/-! ### One edit, made to any fields -/

theorem set_append_cons {before : Headers} {field : Field} {name : String}
    (hbefore : before.has name = false) (hfield : field.isNamed name = true) (value : String)
    (after : Headers) :
    Headers.set (before ++ field :: after) name value =
      before ++ { field with value } :: after := by
  induction before with
  | nil => rw [List.nil_append, Headers.set, if_pos hfield, List.nil_append]
  | cons first before ih =>
    obtain ⟨hfirst, hbefore⟩ : first.isNamed name = false ∧ Headers.has before name = false := by
      simpa [has] using hbefore
    rw [List.cons_append, Headers.set, hfirst, if_neg Bool.false_ne_true, ih hbefore,
      List.cons_append]

theorem erase_set (headers : Headers) (name value : String) :
    (headers.set name value).erase name = headers.erase name := by
  induction headers with
  | nil => simp [Headers.set, erase]
  | cons field rest ih =>
    rw [Headers.set]
    cases hnamed : field.isNamed name with
    | true =>
      have hnew : ({ field with value } : Field).isNamed name = true := hnamed
      rw [if_pos rfl, erase, erase, List.filter_cons, List.filter_cons, hnamed, hnew]
      rfl
    | false =>
      rw [if_neg Bool.false_ne_true, erase, erase, List.filter_cons, List.filter_cons, hnamed]
      exact congrArg (field :: ·) ih

/-- Whatever is done to one name, the fields of all others stay, in their order. -/
theorem erase_edit (headers : Headers) (edit : Edit) :
    (headers.edit edit).erase edit.name = headers.erase edit.name := by
  cases edit with
  | set name value => exact erase_set headers name value
  | erase name =>
    change (headers.erase name).erase name = headers.erase name
    rw [erase, erase, List.filter_filter]
    simp only [Bool.and_self]

theorem get?_edit_of_not_isOn (headers : Headers) {edit : Edit} {other : String}
    (h : edit.isOn other = false) : (headers.edit edit).get? other = headers.get? other := by
  have hnot : ¬ Text.eqIgnoringCase edit.name other = true := ne_true_of_eq_false h
  cases edit with
  | set name value => exact (get?_set headers name value other).trans (if_neg hnot)
  | erase name => exact (get?_erase headers name other).trans (if_neg hnot)

theorem count_erase (headers : Headers) (name : String) (field : Field) :
    (headers.erase name).count field = if field.isNamed name then 0 else headers.count field := by
  split
  · next hnamed =>
    refine List.count_eq_zero.2 fun hmem => ?_
    simp [erase, hnamed] at hmem
  · next hnot => exact List.count_filter (by simpa using hnot)

end Headers

/-- **Fields as a map that remembers an order.** However the fields of a new request are edited, no
name stands twice. A name has the value it was last set to, under any spelling, if it was not erased
since; and the names stand where and as they were first set since they were last erased. An edit
leaves the fields of other names as they are. This is so of any list of fields, in which a name may
stand more than once: setting a name changes the first of its fields alone, or puts one behind the
others, and erasing a name leaves all other fields in their order. -/
theorem Request.fields_of_edits (method : Method) (path : String) (edits : List Edit) :
    let headers := (Request.editAll { method, path } edits).headers
    headers.Distinct ∧
      (∀ name value, headers.get? name = some value ↔ ∃ before spelling after,
        edits = before ++ .set spelling value :: after ∧
          Text.eqIgnoringCase spelling name = true ∧ ∀ later ∈ after, later.isOn name = false) ∧
      headers.names = Edit.insertions edits ∧
      (∀ (fields : Headers) (edit : Edit),
        (fields.edit edit).erase edit.name = fields.erase edit.name ∧
          ∀ other, edit.isOn other = false → (fields.edit edit).get? other = fields.get? other) ∧
      (∀ (before after : Headers) (field : Field) (name value : String),
        before.has name = false → field.isNamed name = true →
          Headers.set (before ++ field :: after) name value =
            before ++ { field with value } :: after) ∧
      (∀ (fields : Headers) (name value : String), fields.has name = false →
        fields.set name value = fields ++ [⟨name, value⟩]) ∧
      ∀ (fields : Headers) (name : String), (fields.erase name).Sublist fields ∧
        ∀ field, (fields.erase name).count field =
          if field.isNamed name then 0 else fields.count field := by
  intro headers
  have hheaders : headers = Headers.editAll [] edits := by
    show (Request.editAll { method, path } edits).headers = _
    rw [Request.editAll_eq]
  rw [hheaders]
  refine ⟨Headers.Distinct.editAll .nil edits, fun name value => ?_, Headers.names_editAll edits,
    fun fields edit => ⟨fields.erase_edit edit, fun other h => fields.get?_edit_of_not_isOn h⟩,
    fun before after field name value hbefore hfield =>
      Headers.set_append_cons hbefore hfield value after,
    fun fields name value h => Headers.set_of_not_has value h,
    fun fields name => ⟨List.filter_sublist, fields.count_erase name⟩⟩
  rw [Headers.get?_editAll, Option.bind_eq_some_iff]
  constructor
  · rintro ⟨edit, hlatest, hvalue⟩
    obtain ⟨before, after, hedits, hname, hafter⟩ := Edit.latest?_eq_some_iff.1 hlatest
    cases edit with
    | erase erased => nomatch hvalue
    | set spelling new =>
      obtain rfl := Option.some.inj hvalue
      exact ⟨before, spelling, after, hedits, hname, hafter⟩
  · rintro ⟨before, spelling, after, hedits, hname, hafter⟩
    exact ⟨_, Edit.latest?_eq_some_iff.2 ⟨before, after, hedits, hname, hafter⟩, rfl⟩

end WebClient.Http
