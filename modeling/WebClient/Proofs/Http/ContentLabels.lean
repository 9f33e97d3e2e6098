import WebClient.Proofs.Http.ContentCoding
import WebClient.Proofs.Text.Letter
import WebClient.Proofs.Text.Split

/-!
# Labels of bodies

The Content-Encoding fields of a response say under which codings its body is a form of the content.
What a coding makes of a content is a relation here, since a coding may have many forms of one
content, and the readers of bodies are sound for it when what they read is a content that the body
is a form of.

Decoding keeps such labels true if it takes none of them off, or undoes all the codings they name.
It looks at the first field only and then takes all of them off, so it does this for headers that
name nothing but the identity behind a coding that is undone, and for no others
(`decode_truthful_iff`).
-/

namespace WebClient.Http

open ContentCoding (ofValue? decode withInflated)

/-! ### Labels -/

def IsForeignCoding (name : String) : Prop :=
  ∀ coding : ContentCoding, name ∉ coding.names

namespace Headers

/-- The content codings that the fields name, in the order in which they were applied, in small
letters. -/
def contentCodings (headers : Headers) : List String :=
  ((headers.elements "Content-Encoding").map Text.lower).filter (· ≠ "")

/-- The first field names no coding that is undone, or all fields together name no other coding than
that one, the identity aside. -/
def NameOneCoding (headers : Headers) : Prop :=
  (∀ value ∈ headers.get? "Content-Encoding", IsForeignCoding (Text.lower (Text.trim value))) ∨
    ∀ name ∈ headers.contentCodings.tail, name = "identity"

end Headers

/-- The body is a form of the content under some codings, the one that was applied first in
front. -/
inductive CodedBy (coded : String → Bytes → Bytes → Prop) : List String → Bytes → Bytes → Prop
  | nil (content : Bytes) : CodedBy coded [] content content
  | cons {name : String} {names : List String} {content form body : Bytes}
      (hfirst : coded name content form) (hnames : CodedBy coded names form body) :
    CodedBy coded (name :: names) content body

/-- The labels of a body were left on, with the body, or all the codings they name were undone; and
no label of a coding that cannot be undone was taken off. -/
structure KeepsLabels (coded : String → Bytes → Bytes → Prop) (before after : Response) : Prop where
  unchanged_or_undone :
    after.body = before.body ∧ after.headers.values "Content-Encoding" =
      before.headers.values "Content-Encoding" ∨
    CodedBy coded before.headers.contentCodings after.body before.body
  foreign_kept : ∀ name ∈ before.headers.contentCodings, IsForeignCoding name →
    name ∈ after.headers.contentCodings

namespace Inflaters

/-- What is read of a body is a content that the body is a form of. -/
def Sound (inflaters : Inflaters) (coded : String → Bytes → Bytes → Prop) : Prop :=
  ∀ coding : ContentCoding, ∀ name ∈ coding.names, ∀ body content,
    inflaters.Reads coding body content → coded name content body

/-- The forms of a content that the readers take for one. -/
def Forms (inflaters : Inflaters) (name : String) (content body : Bytes) : Prop :=
  ∃ coding : ContentCoding, name ∈ coding.names ∧ inflaters.Reads coding body content

theorem sound_forms (inflaters : Inflaters) : inflaters.Sound inflaters.Forms :=
  fun coding _ hname _ _ hreads => ⟨coding, hname, hreads⟩

end Inflaters

namespace ContentCoding

variable {inflaters : Inflaters} {coded : String → Bytes → Bytes → Prop}
  {before after : Response} {coding : ContentCoding}

theorem ofValue?_eq_none_iff {value : String} :
    ofValue? value = none ↔ IsForeignCoding (Text.lower (Text.trim value)) := by
  rw [Option.eq_none_iff_forall_ne_some]
  exact forall_congr' fun coding => not_congr ofValue?_eq_some_iff

theorem isWord_of_mem_names {name : String} (h : name ∈ coding.names) :
    name ≠ "" ∧ ',' ∉ name.toList := by
  cases coding with
  | gzip =>
    simp only [names, List.mem_cons, List.not_mem_nil, or_false] at h
    rcases h with rfl | rfl <;> decide
  | deflate =>
    rw [List.mem_singleton.1 h]
    decide
  | identity =>
    rw [List.mem_singleton.1 h]
    decide

theorem eq_of_mem_names {name : String} {other : ContentCoding} (h : name ∈ coding.names)
    (hother : name ∈ other.names) : coding = other := by
  cases coding <;> cases other <;> simp_all [names]

/-- The first field is no list where it names a coding that is undone. -/
theorem exists_contentCodings_eq (h : before.coding? = some coding) :
    ∃ name ∈ coding.names, ∃ rest, before.headers.contentCodings = name :: rest := by
  obtain ⟨value, hvalue, hcoding⟩ := Option.bind_eq_some_iff.1 h
  have hname := ofValue?_eq_some_iff.1 hcoding
  obtain ⟨hne, hcomma⟩ := isWord_of_mem_names hname
  have halone : ',' ∉ value.toList := by
    obtain ⟨front, back, hfront, hback, heq⟩ := Text.exists_eq_append_trimChars value.toList
    have hblank : Text.isBlank ',' = false := by decide
    have hmark : Text.IsMark ',' := by decide
    have htrim : ',' ∉ Text.trimChars value.toList := by
      intro hmem
      refine hcomma ?_
      rw [Text.toList_lower, Text.toList_trim]
      exact List.mem_map.2 ⟨',', hmem, (Text.toLower_eq_iff hmark ',').2 rfl⟩
    rw [heq]
    intro hmem
    rcases List.mem_append.1 hmem with hmem | hmem
    · rcases List.mem_append.1 hmem with hmem | hmem
      · exact absurd (hfront _ hmem) (by simp [hblank])
      · exact htrim hmem
    · exact absurd (hback _ hmem) (by simp [hblank])
  rw [Headers.get?_eq_head?_values] at hvalue
  obtain ⟨values, hvalues⟩ := List.head?_eq_some_iff.1 hvalue
  rw [Headers.contentCodings, Headers.elements, hvalues, List.flatMap_cons,
    List.splitOn_eq_singleton halone, List.map_singleton, List.singleton_append, List.map_cons]
  exact ⟨_, hname, _, List.filter_cons_of_pos (decide_eq_true hne)⟩

/-! ### Labels that stay true -/

theorem codedBy_identities (hsound : inflaters.Sound coded) {names : List String}
    (h : ∀ name ∈ names, name = "identity") (body : Bytes) : CodedBy coded names body body := by
  induction names with
  | nil => exact .nil body
  | cons name names ih =>
    obtain ⟨hname, hnames⟩ := List.forall_mem_cons.1 h
    have hmem : name ∈ ContentCoding.names .identity := by simp [ContentCoding.names, hname]
    exact .cons (hsound .identity name hmem body body rfl) (ih hnames)

/-- Where no more is named than what is undone, the labels that are taken off have come true. -/
theorem keepsLabels_of_reads (hsound : inflaters.Sound coded)
    (hcoding : before.coding? = some coding)
    (hreads : inflaters.Reads coding before.body after.body)
    (hone : before.headers.NameOneCoding) : KeepsLabels coded before after := by
  obtain ⟨name, hname, rest, hnames⟩ := exists_contentCodings_eq hcoding
  have hrest : ∀ other ∈ rest, other = "identity" := by
    rcases hone with hforeign | hrest
    · obtain ⟨value, hvalue, hof⟩ := Option.bind_eq_some_iff.1 hcoding
      exact absurd (ofValue?_eq_some_iff.1 hof) (hforeign value hvalue coding)
    · rwa [hnames] at hrest
  constructor
  · rw [hnames]
    exact .inr (.cons (hsound coding name hname _ _ hreads) (codedBy_identities hsound hrest _))
  · intro other hother hforeign
    rw [hnames] at hother
    rcases List.mem_cons.1 hother with rfl | hother
    · exact absurd hname (hforeign coding)
    · rw [hrest other hother] at hforeign
      exact absurd (by simp [ContentCoding.names]) (hforeign .identity)

theorem keepsLabels_of_decode (hsound : inflaters.Sound coded)
    (hone : before.headers.NameOneCoding) (h : decode inflaters before = .ok after) :
    KeepsLabels coded before after := by
  cases decoded_of_decode h with
  | untouched => exact ⟨.inl ⟨rfl, rfl⟩, fun _ hname _ => hname⟩
  | unlabelled hcoding => exact keepsLabels_of_reads hsound hcoding rfl hone
  | inflated hcoding _ hreads => exact keepsLabels_of_reads hsound hcoding hreads hone

/-! ### Labels that do not -/

def emptyForm : ContentCoding → Bytes
  | gzip => [0x1f, 0x8b, 8, 0, 0, 0, 0, 0, 0, 255, 1, 0, 0, 255, 255, 0, 0, 0, 0, 0, 0, 0, 0]
  | deflate => [0x78, 0x9c, 1, 0, 0, 255, 255, 0, 0, 0, 1]
  | identity => []

theorem decode_emptyForm (h : before.coding? = some coding)
    (hbody : before.body = emptyForm coding) :
    ∃ after, decode .standard before = .ok after ∧ after.body = [] ∧
      after.headers.has "Content-Encoding" = false := by
  cases coding with
  | gzip =>
    have hread : Inflaters.standard.gzip (emptyForm .gzip) = .ok [] := by decide +kernel
    rw [← hbody] at hread
    exact ⟨_, decode_of_gzip h hread (Nat.zero_le _), rfl, has_withInflated before []⟩
  | deflate =>
    have hread : Inflaters.standard.zlib (emptyForm .deflate) = .ok [] := by decide +kernel
    rw [← hbody] at hread
    exact ⟨_, decode_of_zlib h hread (Nat.zero_le _), rfl, has_withInflated before []⟩
  | identity => exact ⟨_, decode_of_identity h .standard, hbody, Headers.has_erase ..⟩

theorem reads_nil {content : Bytes} (h : Inflaters.standard.Reads coding [] content) :
    coding = .identity ∧ content = [] := by
  have hgzip : Inflaters.standard.gzip [] = .error .truncated := rfl
  have hzlib : Inflaters.standard.zlib [] = .error .truncated := rfl
  have hdeflate : Inflaters.standard.deflate [] = .error .truncated := rfl
  cases coding with
  | gzip => nomatch hgzip.symm.trans h
  | deflate =>
    rcases h with h | h
    · nomatch hzlib.symm.trans h
    · nomatch hdeflate.symm.trans h
  | identity => exact ⟨rfl, h⟩

/-- What stands for nothing under one coding stands for nothing else under any other. -/
theorem eq_nil_of_read {read : Bytes → Except InflateError Bytes}
    (hread : read = Inflaters.standard.gzip ∨ read = Inflaters.standard.zlib ∨
      read = Inflaters.standard.deflate) {content : Bytes}
    (h : read (emptyForm coding) = .ok content) : content = [] := by
  have hnothing : ∀ content ∈ (read (emptyForm coding)).toOption, content = [] := by
    rcases hread with rfl | rfl | rfl <;> cases coding <;> decide +kernel
  exact hnothing content (by rw [h]; rfl)

theorem reads_emptyForm {other : ContentCoding} {content : Bytes}
    (h : Inflaters.standard.Reads other (emptyForm coding) content) :
    other = .identity ∧ content = emptyForm coding ∨ content = [] := by
  cases other with
  | gzip => exact .inr (eq_nil_of_read (.inl rfl) h)
  | deflate =>
    rcases h with h | h
    · exact .inr (eq_nil_of_read (.inr (.inl rfl)) h)
    · exact .inr (eq_nil_of_read (.inr (.inr rfl)) h)
  | identity => exact .inl ⟨rfl, h⟩

theorem eq_identity_of_mem_names {name : String} (h : name ∈ ContentCoding.names .identity) :
    name = "identity" :=
  List.mem_singleton.1 h

theorem forall_identity_of_codedBy {names : List String} {content body : Bytes}
    (h : CodedBy Inflaters.standard.Forms names content body) (hbody : body = []) :
    content = [] ∧ ∀ name ∈ names, name = "identity" := by
  induction h with
  | nil content => exact ⟨hbody, by simp⟩
  | cons hfirst hnames ih =>
    obtain ⟨hform, hrest⟩ := ih hbody
    obtain ⟨coding, hname, hreads⟩ := hfirst
    rw [hform] at hreads
    obtain ⟨rfl, hcontent⟩ := reads_nil hreads
    exact ⟨hcontent, List.forall_mem_cons.2 ⟨eq_identity_of_mem_names hname, hrest⟩⟩

theorem length_le_one_of_codedBy {names : List String} {content body : Bytes}
    (h : CodedBy Inflaters.standard.Forms names content body) (hbody : body = emptyForm coding) :
    content = body ∧ (∀ name ∈ names, name = "identity") ∨
      content = [] ∧ (names.filter (· ≠ "identity")).length ≤ 1 := by
  induction h with
  | nil content => exact .inl ⟨rfl, by simp⟩
  | @cons name names content form body hfirst hnames ih =>
    obtain ⟨other, hname, hreads⟩ := hfirst
    rcases ih hbody with ⟨hform, hrest⟩ | ⟨hform, hfew⟩
    · rw [hform, hbody] at hreads
      rcases reads_emptyForm hreads with ⟨rfl, hcontent⟩ | hcontent
      · exact .inl ⟨hcontent.trans hbody.symm,
          List.forall_mem_cons.2 ⟨eq_identity_of_mem_names hname, hrest⟩⟩
      · have hnone : names.filter (· ≠ "identity") = [] := by simpa using hrest
        refine .inr ⟨hcontent, ?_⟩
        rw [List.filter_cons, hnone]
        split <;> simp
    · rw [hform] at hreads
      obtain ⟨rfl, hcontent⟩ := reads_nil hreads
      refine .inr ⟨hcontent, ?_⟩
      rwa [eq_identity_of_mem_names hname, List.filter_cons_of_neg (by simp)]

/-- The form of the empty content under one coding is no form of it when another coding is named
behind that one. -/
theorem not_codedBy_emptyForm {name other : String} {names : List String}
    (hname : name ∈ coding.names) (hother : other ∈ names) (hne : other ≠ "identity") :
    ¬ CodedBy Inflaters.standard.Forms (name :: names) [] (emptyForm coding) := by
  intro hcoded
  have hnotAll : ¬ ∀ label ∈ name :: names, label = "identity" :=
    fun hall => hne (hall other (List.mem_cons_of_mem _ hother))
  by_cases hidentity : name = "identity"
  · -- Nothing was undone, and an empty body is a form under the identity alone.
    have hmem : name ∈ ContentCoding.names .identity := by
      simp [ContentCoding.names, hidentity]
    obtain rfl := eq_of_mem_names hname hmem
    exact hnotAll (forall_identity_of_codedBy hcoded rfl).2
  · rcases length_le_one_of_codedBy hcoded rfl with ⟨-, hall⟩ | ⟨-, hfew⟩
    · exact hnotAll hall
    · have hpos : 0 < (names.filter (· ≠ "identity")).length :=
        List.length_pos_of_mem (List.mem_filter.2 ⟨hother, decide_eq_true hne⟩)
      rw [List.filter_cons_of_pos (by simpa using hidentity), List.length_cons] at hfew
      omega

/-- Where another coding is named behind one that is undone, a label is taken off that has not come
true. -/
theorem exists_mislabelled {headers : Headers} (h : ¬ headers.NameOneCoding) :
    ∃ before after : Response, before.headers = headers ∧
      decode .standard before = .ok after ∧
        ¬ KeepsLabels Inflaters.standard.Forms before after := by
  obtain ⟨hfirst, hrest⟩ := not_or.1 h
  obtain ⟨coding, hcoding⟩ :
      ∃ coding, Response.coding? { status := 200, headers } = some coding := by
    refine Option.ne_none_iff_exists'.1 fun hnone => hfirst fun value hvalue => ?_
    exact ofValue?_eq_none_iff.1 (Option.bind_eq_none_iff.1 hnone value hvalue)
  let before : Response := { status := 200, headers, body := emptyForm coding }
  have hbefore : before.coding? = some coding := hcoding
  obtain ⟨after, hafter, hbody, hlabels⟩ := decode_emptyForm hbefore rfl
  obtain ⟨name, hname, rest, hnames⟩ := exists_contentCodings_eq hbefore
  have hother : ∃ other ∈ rest, other ≠ "identity" := by
    rw [show headers.contentCodings = name :: rest from hnames] at hrest
    simpa using hrest
  obtain ⟨other, hmem, hne⟩ := hother
  refine ⟨before, after, rfl, hafter, fun hkeeps => ?_⟩
  rcases hkeeps.unchanged_or_undone with ⟨-, hvalues⟩ | hcoded
  · -- There was a label, and there is none.
    rw [Headers.values_eq_nil hlabels] at hvalues
    have hnone : before.headers.contentCodings = [] := by
      rw [Headers.contentCodings, Headers.elements, ← hvalues]
      rfl
    rw [hnames] at hnone
    exact List.cons_ne_nil _ _ hnone
  · rw [hnames, hbody] at hcoded
    exact not_codedBy_emptyForm hname hmem hne hcoded

/-- **When the labels stay true.** Whatever reads the bodies, as long as it reads them soundly, a
response that is decoded keeps its labels on or has all the codings undone that they name, exactly
when its header names no other coding but the identity beside the one that is undone. -/
theorem decode_truthful_iff (headers : Headers) :
    headers.NameOneCoding ↔
      ∀ (inflaters : Inflaters) (coded : String → Bytes → Bytes → Prop), inflaters.Sound coded →
        ∀ before after : Response, before.headers = headers →
          decode inflaters before = .ok after → KeepsLabels coded before after := by
  constructor
  · rintro hone inflaters coded hsound before after rfl h
    exact keepsLabels_of_decode hsound hone h
  · intro hall
    by_contra hnot
    obtain ⟨before, after, hheaders, hdecode, hmislabelled⟩ := exists_mislabelled hnot
    exact hmislabelled (hall .standard _ (Inflaters.sound_forms _) before after hheaders hdecode)

/-- A body that is labelled twice, as what it is and as what is not undone. -/
def twiceLabelled : Response where
  status := 200
  headers := [⟨"Content-Encoding", "identity"⟩, ⟨"Content-Encoding", "br"⟩]
  body := Bytes.ofString "xyz"

/-- **A label that is taken off though its coding is not undone.** -/
theorem mislabelled_twice :
    decode .standard twiceLabelled = .ok { twiceLabelled with headers := [] } ∧
      ∀ coded, ¬ KeepsLabels coded twiceLabelled { twiceLabelled with headers := [] } := by
  constructor
  · decide +kernel
  · intro coded hkeeps
    have hnamed : "br" ∈ twiceLabelled.headers.contentCodings := by decide +kernel
    have hforeign : IsForeignCoding "br" := by
      intro coding
      cases coding <;> decide
    have hkept := hkeeps.foreign_kept "br" hnamed hforeign
    revert hkept
    decide +kernel

end ContentCoding

end WebClient.Http
