import WebClient.Endpoint.Resolve
import WebClient.Proofs.Text.Letter
import WebClient.Proofs.Text.Split

/-!
# Where a location leads

A reference begins with a scheme when a colon stands in front of its first slash, question mark or
number sign. One that does not is meant to stay on the server that gave it, or, behind two slashes,
to keep the scheme. Both hold as long as no colon is followed by two slashes anywhere in the
reference. One that has them in its path, its query or its fragment, as the address to return to
often has, is taken for a URL all the same, and since no scheme is written with a slash, a question
mark or a number sign it is refused (`resolve_of_mark`).
-/

namespace WebClient

/-- Whether the scheme of a reference, if it had one, would have to end in front of a character. -/
def endsScheme (c : Char) : Bool :=
  c = '/' || c = '?' || c = '#'

/-- The reference does not begin with a scheme: no colon stands in front of its first slash,
question mark or number sign. -/
def IsRelative (reference : List Char) : Prop :=
  ':' ∉ reference.takeWhile fun c => !endsScheme c

instance (reference : List Char) : Decidable (IsRelative reference) :=
  inferInstanceAs (Decidable (_ ∉ _))

def schemeMark : List Char := [':', '/', '/']

/-! ### References without a scheme -/

theorem endsScheme_iff {c : Char} : endsScheme c = true ↔ c = '/' ∨ c = '?' ∨ c = '#' := by
  simp [endsScheme, or_assoc]

theorem isRelative_of_slash (reference : List Char) : IsRelative ('/' :: reference) := by
  intro hmem
  exact absurd hmem List.not_mem_nil

theorem IsRelative.trim {reference : List Char} (h : IsRelative reference) :
    IsRelative (Text.trimChars reference) := by
  obtain ⟨front, back, hfront, -, heq⟩ := Text.exists_eq_append_trimChars reference
  have hpass : ∀ c ∈ front, (!endsScheme c) = true := by
    intro c hc
    have hblank := hfront c hc
    by_contra hends
    rcases endsScheme_iff.1 (by simpa using hends) with rfl | rfl | rfl <;>
      exact absurd hblank (by decide)
  intro hmem
  apply h
  rw [heq, List.append_assoc, List.takeWhile_append_of_pos hpass]
  apply List.mem_append_right
  rw [List.takeWhile_append]
  split
  · exact List.mem_append_left _ ((List.takeWhile_prefix _).subset hmem)
  · exact hmem

namespace Scheme

theorem endsScheme_name (scheme : Scheme) : ∀ c ∈ scheme.name.toList, endsScheme c = false := by
  have hall : scheme.name.toList.all (!endsScheme ·) = true := by
    cases scheme <;> decide +kernel
  intro c hc
  have hname := List.all_eq_true.1 hall c hc
  rwa [Bool.not_eq_true'] at hname

theorem ofName?_name (scheme : Scheme) : ofName? scheme.name = some scheme := by
  cases scheme <;> decide +kernel

theorem lower_name (scheme : Scheme) : Text.lower scheme.name = scheme.name := by
  cases scheme <;> decide +kernel

theorem not_mem_name (scheme : Scheme) : ':' ∉ scheme.name.toList := by
  cases scheme <;> decide +kernel

theorem ofName?_eq_some_iff {name : String} {scheme : Scheme} :
    ofName? name = some scheme ↔ Text.eqIgnoringCase name scheme.name = true := by
  rw [Text.eqIgnoringCase_iff, lower_name]
  constructor
  · intro h
    unfold ofName? at h
    simpa using List.find?_some h
  · intro h
    have hself := scheme.ofName?_name
    rw [ofName?, scheme.lower_name] at hself
    rw [ofName?, h, hself]

theorem ofName?_eq_none {name : String} {c : Char} (hmem : c ∈ name.toList)
    (hends : endsScheme c = true) : ofName? name = none := by
  rw [ofName?, List.find?_eq_none]
  intro scheme _ hname
  have hsame : c.toLower = c := by
    rcases endsScheme_iff.1 hends with rfl | rfl | rfl <;> rfl
  have hlower : c ∈ (Text.lower name).toList := by
    rw [Text.toList_lower]
    exact List.mem_map.2 ⟨c, hmem, hsame⟩
  rw [beq_iff_eq.1 hname] at hlower
  exact Bool.false_ne_true ((scheme.endsScheme_name c hlower).symm.trans hends)

end Scheme

namespace Endpoint

/-! ### Taking a reference for a URL -/

/-- A reference without a scheme has none in front of its first mark either. -/
theorem splitScheme?_eq_none {reference : List Char} (hrelative : IsRelative reference) :
    splitScheme? reference = none := by
  unfold splitScheme?
  split
  · next name rest hcut =>
    have heq := Text.eq_of_splitMarker? hcut
    suffices h : ∃ c ∈ name, endsScheme c = true by
      obtain ⟨c, hc, hends⟩ := h
      rw [Scheme.ofName?_eq_none (by rwa [String.toList_ofList]) hends, Option.map_none]
    -- Otherwise the colon of the mark itself would stand where the scheme does.
    by_contra hnone
    have hpass : ∀ c ∈ name, (!endsScheme c) = true := by simpa using hnone
    apply hrelative
    rw [heq, List.append_assoc, List.takeWhile_append_of_pos hpass]
    exact List.mem_append_right _ List.mem_cons_self
  · rfl

/-- A URL is only refused for its scheme under its own name. -/
theorem eq_of_parse_eq_unsupportedScheme {url text : String}
    (h : parse url = .error (.unsupportedScheme text)) : text = url := by
  have hport (cs : List Char) : readPort cs ≠ .error (.unsupportedScheme text) := by
    unfold readPort
    split <;> simp
  have hauthority (default : UInt16) (authority : List Char) :
      splitHostPort default authority ≠ .error (.unsupportedScheme text) := by
    have hmap (host cs : List Char) :
        (readPort cs).map (host, ·) ≠ .error (.unsupportedScheme text) := by
      intro hread
      cases hcase : readPort cs with
      | error e =>
        rw [hcase] at hread
        exact hport cs (hcase.trans (congrArg _ (Except.error.inj hread)))
      | ok port =>
        rw [hcase] at hread
        nomatch hread
    unfold splitHostPort
    repeat' split
    all_goals first | exact hmap _ _ | simp
  unfold parse at h
  split at h
  · exact (UrlError.unsupportedScheme.inj (Except.error.inj h)).symm
  · dsimp only at h
    split at h
    · next e hcase =>
      obtain rfl := Except.error.inj h
      exact absurd hcase (hauthority _ _)
    · simp at h
    · simp at h

/-! ### Resolving a reference -/

theorem resolve_eq_parse (base : Endpoint) {location : String}
    (hmark : schemeMark <:+: Text.trimChars location.toList) :
    base.resolve location = parse (Text.trim location) := by
  have hcut : Text.splitMarker? [':', '/', '/'] (Text.trimChars location.toList) ≠ none :=
    fun hnone => Text.splitMarker?_eq_none_iff.1 hnone hmark
  obtain ⟨cut, hcut⟩ := Option.ne_none_iff_exists'.1 hcut
  rw [resolve, hcut]
  rfl

/-- **A mark in a reference.** Wherever a colon and two slashes stand in a reference without a
scheme, it is refused. -/
theorem resolve_of_mark (base : Endpoint) {location : String}
    (hrelative : IsRelative (Text.trimChars location.toList))
    (hmark : schemeMark <:+: Text.trimChars location.toList) :
    base.resolve location = .error (.unsupportedScheme (Text.trim location)) := by
  have hscheme : splitScheme? (Text.trimChars location.toList) = none :=
    splitScheme?_eq_none hrelative
  rw [base.resolve_eq_parse hmark, parse, Text.toList_trim, Text.trimChars_trimChars, hscheme]

/-- Without a mark in it, a reference behind two slashes is read under the scheme of the base. -/
theorem resolve_of_slashes (base : Endpoint) {location : String}
    (hslashes : ['/', '/'] <+: Text.trimChars location.toList)
    (hmark : ¬ schemeMark <:+: Text.trimChars location.toList) :
    base.resolve location = parse (base.scheme.name ++ ":" ++ Text.trim location) := by
  obtain ⟨rest, hrest⟩ := hslashes
  have hcut := Text.splitMarker?_eq_none_iff.2 hmark
  have hurl : base.scheme.name ++ "://" ++ String.ofList rest =
      base.scheme.name ++ ":" ++ Text.trim location := by
    rw [← String.toList_inj]
    simp [← hrest]
  rw [← hurl, resolve]
  rw [← hrest] at hcut ⊢
  unfold schemeMark at hcut
  rw [hcut]
  rfl

/-- Without a mark in it, any other reference changes nothing but the path. -/
theorem resolve_eq_of_path (base : Endpoint) {location : String}
    (hslashes : ¬ ['/', '/'] <+: Text.trimChars location.toList)
    (hmark : ¬ schemeMark <:+: Text.trimChars location.toList) :
    base.resolve location =
      .ok { base with
        path := String.ofList
          (resolvePath base.path.toList (dropFragment (Text.trimChars location.toList))) } := by
  have hcut := Text.splitMarker?_eq_none_iff.2 hmark
  unfold schemeMark at hcut
  rw [resolve]
  simp only [hcut]
  split
  · next heq => nomatch heq
  · next rest _ heq => exact absurd ⟨rest, heq.symm⟩ hslashes
  · rfl

theorem resolve_of_path (base : Endpoint) {location : String}
    (hslashes : ¬ ['/', '/'] <+: Text.trimChars location.toList)
    (hmark : ¬ schemeMark <:+: Text.trimChars location.toList) :
    ∃ path, base.resolve location = .ok { base with path } :=
  ⟨_, base.resolve_eq_of_path hslashes hmark⟩

/-- **Where a relative location leads.** A location that begins with neither a scheme nor two
slashes gives an endpoint with the scheme, the host and the port of the base exactly when no colon
is followed by two slashes anywhere in it; one that begins with two slashes is read as the URL that
it makes behind the scheme of the base under the same condition. In every other case the location
is refused for a scheme that it does not have. -/
theorem resolve_relative_iff (base : Endpoint) (location : String) :
    let reference := Text.trimChars location.toList
    (IsRelative location.toList → ¬ ['/', '/'] <+: reference →
      ((∃ path, base.resolve location = .ok { base with path }) ↔
        ¬ schemeMark <:+: reference)) ∧
    (['/', '/'] <+: reference →
      (base.resolve location = parse (base.scheme.name ++ ":" ++ Text.trim location) ↔
        ¬ schemeMark <:+: reference)) ∧
    (IsRelative location.toList → schemeMark <:+: reference →
      base.resolve location = .error (.unsupportedScheme (Text.trim location))) := by
  intro reference
  refine ⟨fun hrelative hslashes => ⟨?_, base.resolve_of_path hslashes⟩,
    fun hslashes => ⟨?_, base.resolve_of_slashes hslashes⟩, fun hrelative => ?_⟩
  · rintro ⟨path, hpath⟩ hmark
    rw [base.resolve_of_mark hrelative.trim hmark] at hpath
    nomatch hpath
  · intro hparse hmark
    obtain ⟨rest, hrest⟩ := hslashes
    have hrelative : IsRelative reference := hrest ▸ isRelative_of_slash _
    rw [base.resolve_of_mark hrelative hmark] at hparse
    -- The URL has the scheme of the base in front, so it is another text than the location.
    have htext := congrArg String.length (eq_of_parse_eq_unsupportedScheme hparse.symm)
    simp only [String.length_append] at htext
    have hcolon : ":".length = 1 := rfl
    omega
  · exact base.resolve_of_mark hrelative.trim

/-! ### Addresses to return to -/

/-- A page of a server, which answers with locations. -/
def askedPage : Endpoint :=
  { scheme := .http, host := "a.example", port := 8080, path := "/dir/page?q=1" }

/-- A location on the same server, one on another server, and one that carries an address to return
to. -/
theorem resolve_askedPage :
    (∃ path, askedPage.resolve " ../login?next=home:8#/x " = .ok { askedPage with path }) ∧
      askedPage.resolve "//c.example:99/y?u=d:8" = parse "http://c.example:99/y?u=d:8" ∧
      askedPage.resolve " /login?next=http://a.example/ " =
        .error (.unsupportedScheme "/login?next=http://a.example/") := by
  obtain ⟨hpath, -, -⟩ := askedPage.resolve_relative_iff " ../login?next=home:8#/x "
  obtain ⟨-, hslashes, -⟩ := askedPage.resolve_relative_iff "//c.example:99/y?u=d:8"
  obtain ⟨-, -, hmark⟩ := askedPage.resolve_relative_iff " /login?next=http://a.example/ "
  refine ⟨(hpath (by decide +kernel) (by decide +kernel)).2 (by decide +kernel), ?_, ?_⟩
  · exact (hslashes (by decide +kernel)).2 (by decide +kernel)
  · exact hmark (by decide +kernel) (by decide +kernel)

/-- **Addresses to return to are refused.** A location that is a path with a URL in its query does
not lead to the server that gave it, and one that begins with two slashes and has a URL in its query
is not read as the URL that it makes behind the scheme. -/
theorem resolve_return_addresses :
    (IsRelative "/login?next=http://b.example/".toList ∧
      ¬ ['/', '/'] <+: Text.trimChars "/login?next=http://b.example/".toList ∧
      ¬ ∃ e, askedPage.resolve "/login?next=http://b.example/" = .ok e) ∧
    ['/', '/'] <+: Text.trimChars "//c.example/y?u=http://d.example/".toList ∧
      Text.trim "//c.example/y?u=http://d.example/" = "//c.example/y?u=http://d.example/" ∧
      askedPage.resolve "//c.example/y?u=http://d.example/" ≠
        parse (askedPage.scheme.name ++ ":" ++ "//c.example/y?u=http://d.example/") := by
  have hlogin : askedPage.resolve "/login?next=http://b.example/" =
      .error (.unsupportedScheme "/login?next=http://b.example/") := by decide +kernel
  have hother : askedPage.resolve "//c.example/y?u=http://d.example/" =
      .error (.unsupportedScheme "//c.example/y?u=http://d.example/") := by decide +kernel
  have hparse : parse (askedPage.scheme.name ++ ":" ++ "//c.example/y?u=http://d.example/") =
      .ok { scheme := .http, host := "c.example", port := 80
            path := "/y?u=http://d.example/" } := by decide +kernel
  refine ⟨⟨by decide +kernel, by decide +kernel, ?_⟩, by decide +kernel, by decide +kernel, ?_⟩
  · rw [hlogin]
    rintro ⟨e, he⟩
    nomatch he
  · rw [hother, hparse]
    simp

end Endpoint

end WebClient
