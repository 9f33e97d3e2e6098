import WebClient.Http.Headers

/-!
# Looking fields up

What a list of fields says about a name is what its parts say, one after the other, and it does not
depend on the letter case in which the name is asked for.
-/

namespace WebClient.Http

@[simp] theorem isNamed_self (name value : String) : (Field.mk name value).isNamed name = true :=
  Text.eqIgnoringCase_refl name

theorem isNamed_congr {a b : String} (h : Text.lower a = Text.lower b) (field : Field) :
    field.isNamed a = field.isNamed b := by
  simp only [Field.isNamed, Text.eqIgnoringCase, h]

namespace Headers

variable {headers : Headers} {name : String}

@[simp] theorem has_nil (name : String) : Headers.has [] name = false := rfl

@[simp] theorem has_append (headers more : Headers) (name : String) :
    Headers.has (headers ++ more) name = (headers.has name || more.has name) := by
  simp [Headers.has]

@[simp] theorem has_singleton (field : Field) (name : String) :
    Headers.has [field] name = field.isNamed name := by
  simp [Headers.has]

theorem has_congr {a b : String} (h : Text.lower a = Text.lower b) (headers : Headers) :
    headers.has a = headers.has b := by
  simp only [Headers.has, isNamed_congr h]

@[simp] theorem values_append (headers more : Headers) (name : String) :
    Headers.values (headers ++ more) name = headers.values name ++ more.values name := by
  simp [Headers.values]

theorem values_singleton (name value : String) :
    Headers.values [⟨name, value⟩] name = [value] := by
  simp [Headers.values]

theorem values_eq_nil (h : headers.has name = false) : headers.values name = [] := by
  simpa [Headers.has, Headers.values, List.filter_eq_nil_iff] using h

theorem values_congr {a b : String} (h : Text.lower a = Text.lower b) (headers : Headers) :
    headers.values a = headers.values b := by
  simp only [Headers.values, isNamed_congr h]

theorem values_cons (field : Field) (rest : Headers) (name : String) :
    Headers.values (field :: rest) name =
      if field.isNamed name then field.value :: rest.values name else rest.values name := by
  unfold values
  rw [List.filter_cons]
  split <;> rfl

theorem get?_cons (field : Field) (rest : Headers) (name : String) :
    Headers.get? (field :: rest) name =
      if field.isNamed name then some field.value else rest.get? name := by
  unfold get?
  rw [List.find?_cons]
  cases field.isNamed name <;> rfl

theorem get?_cons_of_isNamed {field : Field} (h : field.isNamed name = true) (rest : Headers) :
    Headers.get? (field :: rest) name = some field.value := by
  rw [get?_cons, if_pos h]

theorem get?_cons_of_not {field : Field} (h : field.isNamed name = false) (rest : Headers) :
    Headers.get? (field :: rest) name = rest.get? name := by
  rw [get?_cons, h, if_neg Bool.false_ne_true]

theorem get?_eq_head?_values (headers : Headers) (name : String) :
    headers.get? name = (headers.values name).head? := by
  simp [Headers.get?, Headers.values, List.head?_filter]

theorem get?_eq_none (h : headers.has name = false) : headers.get? name = none := by
  rw [get?_eq_head?_values, values_eq_nil h]
  rfl

theorem set_of_not_has (value : String) (h : headers.has name = false) :
    headers.set name value = headers ++ [⟨name, value⟩] := by
  induction headers with
  | nil => rfl
  | cons field rest ih =>
    have hfield : field.isNamed name = false ∧ Headers.has rest name = false := by
      simpa [Headers.has] using h
    rw [Headers.set, hfield.1, if_neg Bool.false_ne_true, ih hfield.2, List.cons_append]

/-- Some field with the name has the element in its comma-separated list. -/
def Lists (headers : Headers) (name element : String) : Prop :=
  ∃ field ∈ headers, field.isNamed name = true ∧ ∃ item ∈ field.value.toList.splitOn ',',
    Text.eqIgnoringCase (Text.trim (String.ofList item)) element = true

theorem hasElement_iff {headers : Headers} {name element : String} :
    headers.hasElement name element = true ↔ headers.Lists name element := by
  simp [hasElement, elements, values, Lists, Text.trim]

/-! ### Leaving fields out -/

/-- The fields that have none of some names. -/
def without (headers : Headers) (names : List String) : Headers :=
  headers.filter fun field => !names.any field.isNamed

theorem erase_eq_without (headers : Headers) (name : String) :
    headers.erase name = headers.without [name] := by
  simp [erase, without]

theorem without_without (headers : Headers) (names more : List String) :
    (headers.without names).without more = headers.without (names ++ more) := by
  simp only [without, List.filter_filter, List.any_append, Bool.not_or, Bool.and_comm]

theorem without_congr {names others : List String} (h : ∀ name, name ∈ names ↔ name ∈ others)
    (headers : Headers) : headers.without names = headers.without others := by
  refine List.filter_congr fun field _ => congrArg (!·) ?_
  rw [Bool.eq_iff_iff, List.any_eq_true, List.any_eq_true]
  exact exists_congr fun name => and_congr_left fun _ => h name

theorem has_without {names : List String} (h : name ∈ names) (headers : Headers) :
    (headers.without names).has name = false := by
  simp only [has, without, List.any_eq_false, List.mem_filter, Bool.not_eq_true',
    List.any_eq_false, and_imp]
  exact fun field _ hnone => hnone name h

@[simp] theorem without_append (headers more : Headers) (names : List String) :
    Headers.without (headers ++ more) names = headers.without names ++ more.without names :=
  List.filter_append ..

theorem values_erase {a b : String} (h : Text.lower a ≠ Text.lower b) (headers : Headers) :
    (headers.erase a).values b = headers.values b := by
  rw [values, values, erase, List.filter_filter]
  refine congrArg (List.map Field.value) (List.filter_congr fun field _ => ?_)
  by_cases hb : field.isNamed b = true
  · have ha : field.isNamed a = false := by
      rw [Field.isNamed, Text.eqIgnoringCase_iff] at hb
      rw [Field.isNamed, ← Bool.not_eq_true, Text.eqIgnoringCase_iff, hb]
      exact h.symm
    rw [hb, ha]
    rfl
  · rw [Bool.not_eq_true] at hb
    rw [hb, Bool.false_and]

/-! ### Transfer codings -/

/-- The transfer codings that the fields name, in the order in which they are applied. -/
def codings (headers : Headers) : List String :=
  (headers.elements "Transfer-Encoding").filter (!·.isEmpty)

/-- The last transfer coding that is named is the chunked one. -/
def EndChunked (headers : Headers) : Prop :=
  ∃ coding ∈ headers.codings.getLast?, Text.eqIgnoringCase coding "chunked" = true

end Headers

/-! ### The names of the framing fields -/

theorem lower_contentLength : Text.lower "content-length" = Text.lower "Content-Length" := by
  rw [← String.toList_inj]
  simp [Text.lower]

theorem lower_transferEncoding :
    Text.lower "transfer-encoding" = Text.lower "Transfer-Encoding" := by
  rw [← String.toList_inj]
  simp [Text.lower]

theorem not_isNamed_of_length (value : String) :
    (Field.mk "Content-Length" value).isNamed "Transfer-Encoding" = false := by
  have : Text.eqIgnoringCase "Content-Length" "Transfer-Encoding" = false := by decide +kernel
  exact this

theorem not_isNamed_of_coding (value : String) :
    (Field.mk "Transfer-Encoding" value).isNamed "Content-Length" = false := by
  have : Text.eqIgnoringCase "Transfer-Encoding" "Content-Length" = false := by decide +kernel
  exact this

end WebClient.Http
