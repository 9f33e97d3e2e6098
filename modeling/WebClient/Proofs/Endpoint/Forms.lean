import WebClient.Proofs.Endpoint.Resolve
import WebClient.Proofs.Endpoint.Shape
import WebClient.Proofs.Text.Numeral

/-!
# The forms of a location

A location that stays on a server can be written as a path, as a path behind the authority of the
server, or as a whole URL. A path goes through the rewriting that takes its dot segments out, behind
the directory it is relative to (`resolve_rewritten`). The other two forms are read as URLs, and
there the path stays as it is written: the three forms come to one endpoint only when there are no
dot segments to take out, and when the authority that the endpoint is written with reads back
(`forms_agree_iff`).
-/

namespace WebClient.Endpoint

/-! ### Paths -/

/-- A reference that does not begin with a query is resolved by taking the dot segments out of it,
behind the directory of the base if it is not absolute. -/
theorem resolvePath_eq (base : List Char) {target : List Char} (hne : target ≠ [])
    (hquery : ¬ ['?'] <+: target) :
    resolvePath base target = removeDotSegments
      (if ['/'] <+: target then target else directory (dropQuery base) ++ target) := by
  rw [resolvePath.eq_def]
  split
  · exact absurd rfl hne
  · next rest => rw [if_pos ⟨rest, rfl⟩]
  · next query => exact absurd ⟨query, rfl⟩ hquery
  · next hslash _ =>
    rw [if_neg]
    rintro ⟨rest, rfl⟩
    exact hslash rest rfl

/-- **Where a path leads.** A location that is a path, with or without a query, changes the path of
the base and nothing else. The path is what the rewriting makes of the location's path, or of the
base's path up to its last slash with the location's path behind it, and the location's query
follows it as it is written. No dot segment is left in it, and there is nothing to take out a second
time. -/
theorem resolve_rewritten {base : Endpoint} (hbase : base.IsReached) {location : String}
    (hne : Text.trimChars location.toList ≠ [])
    (hmark : ¬ schemeMark <:+: Text.trimChars location.toList)
    (hslashes : ¬ ['/', '/'] <+: Text.trimChars location.toList)
    (hquery : ¬ ['?'] <+: Text.trimChars location.toList)
    (hfragment : ¬ ['#'] <+: Text.trimChars location.toList) :
    let target := dropFragment (Text.trimChars location.toList)
    ∃ path, base.resolve location = .ok { base with path } ∧
      (['/'] <+: target → dropQuery path.toList = rewriteDots [] (dropQuery target)) ∧
      (¬ ['/'] <+: target → ∃ before after,
        dropQuery base.path.toList = before ++ '/' :: after ∧ '/' ∉ after ∧
          dropQuery path.toList = rewriteDots [] (before ++ '/' :: dropQuery target)) ∧
      path.toList.dropWhile (· ≠ '?') = target.dropWhile (· ≠ '?') ∧
      ['/'] <+: path.toList ∧
      (∀ segment ∈ (dropQuery path.toList).splitOn '/', ¬ IsDots segment) ∧
      rewriteDots [] (dropQuery path.toList) = dropQuery path.toList ∧
      removeDotSegments path.toList = path.toList := by
  intro target
  -- A fragment is only dropped behind the first character.
  obtain ⟨c, rest, hreference⟩ := List.exists_cons_of_ne_nil hne
  have hc : c ≠ '#' := by
    rintro rfl
    exact hfragment ⟨rest, hreference.symm⟩
  have htarget : target = c :: dropFragment rest := by
    simp [target, hreference, dropFragment, hc]
  have hquery' : ¬ ['?'] <+: target := by
    rw [htarget]
    rintro ⟨query, heq⟩
    obtain ⟨rfl, -⟩ := List.cons.inj heq
    exact hquery ⟨rest, hreference.symm⟩
  have hpath := resolvePath_eq base.path.toList (by simp [htarget]) hquery'
  have hbasePath := slash_dropQuery hbase.hasShape.path_slash
  refine ⟨_, base.resolve_eq_of_path hslashes hmark, ?_⟩
  rw [String.toList_ofList, hpath]
  by_cases hslash : ['/'] <+: target
  · obtain ⟨hfront, hback, hclean⟩ := removeDotSegments_spec hslash
    rw [if_pos hslash]
    exact ⟨fun _ => hfront, fun hrelative => absurd hslash hrelative, hback,
      slash_removeDotSegments _, hclean⟩
  · obtain ⟨before, after, hbefore, hafter, hdirectory⟩ := directory_spec hbasePath
    obtain ⟨hfront, hback, hclean⟩ := removeDotSegments_spec
      ((slash_directory hbasePath).1.trans (List.prefix_append _ target))
    have hunasked : '?' ∉ directory (dropQuery base.path.toList) := fun hmem => by
      simpa using List.mem_takeWhile_imp ((slash_directory hbasePath).2 hmem)
    obtain ⟨hdropped, hkept⟩ := query_append hunasked target
    have hjoined : directory (dropQuery base.path.toList) ++ dropQuery target =
        before ++ '/' :: dropQuery target := by
      rw [hdirectory, List.append_assoc, List.singleton_append]
    rw [if_neg hslash]
    refine ⟨fun habsolute => absurd habsolute hslash,
      fun _ => ⟨before, after, hbefore, hafter, ?_⟩, hback.trans hkept,
      slash_removeDotSegments _, hclean⟩
    rw [hfront, hdropped, hjoined]

theorem askedPage_isReached : askedPage.IsReached := by
  have hparse : parse "http://a.example:8080/dir/page?q=1#top" = .ok askedPage := by
    decide +kernel
  exact .parse hparse

/-- A way up from a page, with dots in the query as well. -/
theorem resolve_rewritten_askedPage :
    ∃ path, askedPage.resolve " ../up/./x?z=/../y#end" = .ok { askedPage with path } ∧
      (∃ before after, dropQuery askedPage.path.toList = before ++ '/' :: after ∧ '/' ∉ after ∧
        dropQuery path.toList = rewriteDots [] (before ++ '/' :: "../up/./x".toList)) ∧
      path.toList.dropWhile (· ≠ '?') = "?z=/../y".toList ∧ ['/'] <+: path.toList ∧
      (∀ segment ∈ (dropQuery path.toList).splitOn '/', ¬ IsDots segment) ∧
      removeDotSegments path.toList = path.toList := by
  have hne : Text.trimChars " ../up/./x?z=/../y#end".toList ≠ [] := by decide +kernel
  have htarget : dropFragment (Text.trimChars " ../up/./x?z=/../y#end".toList) =
      "../up/./x?z=/../y".toList := by decide +kernel
  obtain ⟨path, hresolve, -, hrelative, hquery, hslash, hdots, -, hagain⟩ :=
    resolve_rewritten askedPage_isReached hne (by decide +kernel) (by decide +kernel)
      (by decide +kernel) (by decide +kernel)
  rw [htarget] at hrelative hquery
  exact ⟨path, hresolve, hrelative (by decide +kernel), hquery, hslash, hdots, hagain⟩

/-! ### Authorities -/

/-- The authority that the endpoint is written with is read as the endpoint's host and port. It is
not when brackets are put around a host that has a closing bracket in it, nor when the host begins
with an opening bracket of its own. -/
def ReadsBack (e : Endpoint) : Prop :=
  (':' ∈ e.host.toList → ']' ∉ e.host.toList) ∧ (':' ∉ e.host.toList → ¬ ['['] <+: e.host.toList)

instance (e : Endpoint) : Decidable e.ReadsBack :=
  inferInstanceAs (Decidable (_ ∧ _))

def portText (e : Endpoint) : List Char :=
  if e.port = e.scheme.defaultPort then [] else ':' :: Text.decimal e.port.toNat

theorem toList_authority (e : Endpoint) :
    e.authority.toList =
      (if ':' ∈ e.host.toList then '[' :: e.host.toList ++ [']'] else e.host.toList) ++
        e.portText := by
  rw [authority, portText]
  split <;> split <;> simp

theorem not_mem_decimal {c : Char} (n : Nat) (h : Text.digitValue? 10 c = none) :
    c ∉ Text.decimal n :=
  (Text.spells_decimal n).not_mem h

theorem not_mem_portText (e : Endpoint) {c : Char} (hcolon : c ≠ ':')
    (h : Text.digitValue? 10 c = none) : c ∉ e.portText := by
  rw [portText]
  split
  · exact List.not_mem_nil
  · exact List.not_mem_cons_of_ne_of_not_mem hcolon (not_mem_decimal _ h)

/-- **Which authorities read back.** -/
theorem serverNames_authority_iff (e : Endpoint) :
    ServerNames e.scheme.defaultPort e.authority.toList e.host.toList e.port ↔ e.ReadsBack := by
  have hport : ']' ∉ e.portText := e.not_mem_portText (by decide) (by decide)
  have hdigits : IsPort (Text.decimal e.port.toNat) e.port := .inl (Text.spells_decimal _)
  by_cases hcolon : ':' ∈ e.host.toList
  · have hauthority : e.authority.toList = '[' :: (e.host.toList ++ ']' :: e.portText) := by
      simp [toList_authority, hcolon]
    rw [hauthority]
    constructor
    · intro hnames
      obtain ⟨after, -, hclosed⟩ := hnames.bracket
      exact ⟨fun _ => hclosed, fun hplain => absurd hcolon hplain⟩
    · intro hreads
      rw [portText]
      split
      · next hdefault =>
        rw [hdefault]
        exact .bracketed (hreads.1 hcolon) (by simp)
      · exact .bracketedPort (hreads.1 hcolon) hdigits
  · have hauthority : e.authority.toList = e.host.toList ++ e.portText := by
      simp [toList_authority, hcolon]
    rw [hauthority]
    constructor
    · intro hnames
      refine ⟨fun hmem => absurd hmem hcolon, fun _ ⟨inside, hinside⟩ => ?_⟩
      rw [← hinside, List.singleton_append, List.cons_append] at hnames
      -- The bracket that closes would have to stand in the port.
      obtain ⟨after, heq, hclosed⟩ := hnames.bracket
      have hmem : ']' ∈ inside ++ e.portText := by
        rw [heq]
        simp
      rcases List.mem_append.1 hmem with hmem | hmem
      · exact hclosed (List.mem_cons_of_mem _ hmem)
      · exact hport hmem
    · intro hreads
      have hopen := hreads.2 hcolon
      rw [portText]
      split
      · next hdefault =>
        rw [hdefault, List.append_nil]
        exact .plain hopen hcolon
      · exact .plainPort hopen hdigits

theorem isOutsideHost_authority {e : Endpoint} (h : e.HasShape) :
    ∀ c ∈ e.authority.toList, isOutsideHost c = false := by
  have hport : ∀ c ∈ e.portText, isOutsideHost c = false := fun c hc =>
    isOutsideHost_eq_false_iff.2
      ⟨ne_of_mem_of_not_mem hc (e.not_mem_portText (by decide) (by decide)),
        ne_of_mem_of_not_mem hc (e.not_mem_portText (by decide) (by decide)),
        ne_of_mem_of_not_mem hc (e.not_mem_portText (by decide) (by decide)),
        ne_of_mem_of_not_mem hc (e.not_mem_portText (by decide) (by decide))⟩
  intro c hc
  rw [toList_authority, List.mem_append] at hc
  rcases hc with hc | hc
  · split at hc
    · simp only [List.cons_append, List.mem_cons, List.mem_append, List.not_mem_nil,
        or_false] at hc
      rcases hc with rfl | hc | rfl
      · decide
      · exact h.host_inside c hc
      · decide
    · exact h.host_inside c hc
  · exact hport c hc

/-! ### Paths behind an authority -/

/-- A text that is a path and stays one behind two slashes. -/
structure IsPathText (p : String) : Prop where
  slash : ['/'] <+: p.toList
  one_slash : ¬ ['/', '/'] <+: p.toList
  unmarked : ¬ schemeMark <:+: p.toList
  trimmed : Text.trim p = p

theorem IsPathText.trimChars_eq {p : String} (h : IsPathText p) :
    Text.trimChars p.toList = p.toList := by
  rw [← Text.toList_trim, h.trimmed]

/-- A mark that begins in front of a path does not reach into it, unless the path begins with two
slashes. -/
theorem not_infix_append {front path : List Char} (hfront : '/' ∉ front)
    (hslashes : ¬ ['/', '/'] <+: path) (hpath : ¬ schemeMark <:+: path) :
    ¬ schemeMark <:+: front ++ path := by
  induction front with
  | nil => exact hpath
  | cons c front ih =>
    obtain ⟨hc, hfront⟩ := not_or.1 (mt List.mem_cons.2 hfront)
    rw [List.cons_append, List.infix_cons_iff]
    rintro (hhere | hlater)
    · have hbehind : ['/', '/'] <+: front ++ path := (List.cons_prefix_cons.1 hhere).2
      cases front with
      | nil => exact hslashes hbehind
      | cons d front =>
        obtain ⟨rfl, -⟩ := List.cons_prefix_cons.1 hbehind
        exact hfront List.mem_cons_self
    · exact ih hfront hlater

theorem toList_spelled (e : Endpoint) (p : String) :
    (e.scheme.name ++ "://" ++ e.authority ++ p).toList =
      e.scheme.name.toList ++ schemeMark ++ (e.authority.toList ++ p.toList) := by
  simp [schemeMark]

theorem trimChars_spelled (e : Endpoint) {p : String} (h : ['/'] <+: p.toList) :
    Text.trimChars (e.scheme.name ++ "://" ++ e.authority ++ p).toList =
      e.scheme.name.toList ++ schemeMark ++ (e.authority.toList ++ Text.trimChars p.toList) := by
  obtain ⟨rest, hrest⟩ := h
  have hname : ∀ c ∈ (e.scheme.name.toList ++ schemeMark ++ e.authority.toList).head?,
      Text.isBlank c = false := by
    cases e.scheme <;> simp [Scheme.name] <;> decide
  have hslash : Text.isBlank '/' = false := by decide
  rw [toList_spelled, ← hrest, ← List.append_assoc, List.singleton_append,
    Text.trimChars_append_cons hname hslash, Text.trimChars_cons hslash, List.append_assoc]

/-- **A URL that an endpoint's own scheme and authority stand in front of.** -/
theorem parse_spelled {e : Endpoint} (hshape : e.HasShape) {p : String} (h : ['/'] <+: p.toList) :
    parse (e.scheme.name ++ "://" ++ e.authority ++ p) =
      readBehind e.scheme e.authority.toList (Text.trimChars p.toList) := by
  have htext := trimChars_spelled e h
  obtain ⟨rest, hrest⟩ := h
  have htrim : Text.trimChars p.toList = '/' :: rest.rdropWhile Text.isBlank := by
    rw [← hrest]
    exact Text.trimChars_cons (by decide) rest
  have hchar (c : Char) (hc : c ∈ e.authority.toList) :=
    isOutsideHost_eq_false_iff.1 (isOutsideHost_authority hshape c hc)
  rw [htrim] at htext ⊢
  have hcut : UrlParts.IsCut ⟨e.scheme.name.toList, [], e.authority.toList,
      '/' :: rest.rdropWhile Text.isBlank⟩ := by
    refine ⟨fun c hc => ?_, ?_, .inl rfl, fun hmem => (hchar '@' hmem).2.2.2 rfl⟩
    · obtain ⟨hslash, hquery, hfragment, -⟩ := hchar c hc
      simp [endsScheme, hslash, hquery, hfragment]
    · simp [endsScheme]
  have hscheme : Text.eqIgnoringCase (String.ofList e.scheme.name.toList) e.scheme.name = true := by
    simp
  rw [parse_of_isCut hcut htext.symm hscheme]
  simp [fromRoot]

theorem resolve_spelled {base : Endpoint} (hshape : base.HasShape) {p : String}
    (h : IsPathText p) :
    base.resolve (base.scheme.name ++ "://" ++ base.authority ++ p) =
      readBehind base.scheme base.authority.toList p.toList := by
  have htrim := trimChars_spelled base h.slash
  rw [h.trimChars_eq, ← toList_spelled] at htrim
  have hmark : schemeMark <:+:
      Text.trimChars (base.scheme.name ++ "://" ++ base.authority ++ p).toList := by
    rw [htrim, toList_spelled]
    exact ⟨_, _, rfl⟩
  rw [base.resolve_eq_parse hmark, Text.trim, htrim, String.ofList_toList,
    parse_spelled hshape h.slash, h.trimChars_eq]

theorem resolve_unschemed {base : Endpoint} (hshape : base.HasShape) {p : String}
    (h : IsPathText p) :
    base.resolve ("//" ++ base.authority ++ p) =
      readBehind base.scheme base.authority.toList p.toList := by
  have htrim : Text.trimChars ("//" ++ base.authority ++ p).toList =
      '/' :: '/' :: (base.authority.toList ++ p.toList) := by
    have hslash : Text.isBlank '/' = false := by decide
    have hfront : ∀ c ∈ ('/' :: '/' :: base.authority.toList).head?, Text.isBlank c = false := by
      simpa using hslash
    have hkept := h.trimChars_eq
    obtain ⟨rest, hrest⟩ := h.slash
    rw [← hrest, List.singleton_append] at hkept ⊢
    rw [Text.trimChars_cons hslash] at hkept
    have hwhole : ("//" ++ base.authority ++ p).toList =
        '/' :: '/' :: base.authority.toList ++ '/' :: rest := by
      simp [← hrest]
    rw [hwhole, Text.trimChars_append_cons hfront hslash, hkept]
    rfl
  have hfront : '/' ∉ base.authority.toList := fun hmem =>
    (isOutsideHost_eq_false_iff.1 (isOutsideHost_authority hshape _ hmem)).1 rfl
  have hmark : ¬ schemeMark <:+: Text.trimChars ("//" ++ base.authority ++ p).toList := by
    rw [htrim, List.infix_cons_iff, List.infix_cons_iff]
    rintro (hfirst | hsecond | hbehind)
    · exact absurd (List.cons_prefix_cons.1 hfirst).1 (by decide)
    · exact absurd (List.cons_prefix_cons.1 hsecond).1 (by decide)
    · exact not_infix_append hfront h.one_slash h.unmarked hbehind
  have hurl : base.scheme.name ++ ":" ++ Text.trim ("//" ++ base.authority ++ p) =
      base.scheme.name ++ "://" ++ base.authority ++ p := by
    rw [← String.toList_inj, String.toList_append, Text.toList_trim, htrim]
    simp
  rw [base.resolve_of_slashes (htrim ▸ ⟨_, rfl⟩) hmark, hurl, parse_spelled hshape h.slash,
    h.trimChars_eq]

theorem resolve_pathText (base : Endpoint) {p : String} (h : IsPathText p) :
    base.resolve p =
      .ok { base with
        path := String.ofList (removeDotSegments (dropFragment p.toList)) } := by
  have htrim := h.trimChars_eq
  have hslash := dropFragment_of_slash h.slash
  obtain ⟨rest, hrest⟩ := hslash
  rw [base.resolve_eq_of_path (by rw [htrim]; exact h.one_slash) (by rw [htrim]; exact h.unmarked),
    htrim, ← hrest]
  rfl

theorem readBehind_eq_iff {base : Endpoint} (hshape : base.HasShape) (path path' : List Char) :
    readBehind base.scheme base.authority.toList path =
        .ok { base with path := String.ofList path' } ↔
      base.ReadsBack ∧ dropFragment path = path' := by
  rw [← serverNames_authority_iff, readBehind_eq_ok_iff]
  simp [hshape.host_ne_nil, eq_comm]

/-- **When the forms of a location agree.** On the server of an endpoint, a path behind its
authority is read alike with and without its scheme. The path alone leads to the same endpoint
exactly when the authority reads back and the path has no dot segment: a path alone has them taken
out, and one behind an authority keeps them. -/
theorem forms_agree_iff {base : Endpoint} (hbase : base.IsReached) {p : String}
    (h : IsPathText p) :
    base.resolve ("//" ++ base.authority ++ p) =
        base.resolve (base.scheme.name ++ "://" ++ base.authority ++ p) ∧
      (base.resolve (base.scheme.name ++ "://" ++ base.authority ++ p) = base.resolve p ↔
        base.ReadsBack ∧
          ∀ segment ∈ (dropQuery (dropFragment p.toList)).splitOn '/', ¬ IsDots segment) ∧
      base.resolve p =
        .ok { base with path := String.ofList (removeDotSegments (dropFragment p.toList)) } ∧
      (base.resolve (base.scheme.name ++ "://" ++ base.authority ++ p) =
          .ok { base with path := String.ofList (dropFragment p.toList) } ↔ base.ReadsBack) := by
  have hshape := hbase.hasShape
  have hslash := dropFragment_of_slash h.slash
  rw [resolve_spelled hshape h, resolve_unschemed hshape h, base.resolve_pathText h,
    readBehind_eq_iff hshape, readBehind_eq_iff hshape, eq_comm (a := dropFragment p.toList),
    removeDotSegments_eq_self_iff hslash]
  simp

/-- A server whose address stands between brackets. -/
def loopbackPage : Endpoint :=
  { scheme := .ws, host := "::1", port := 9000, path := "/feed" }

theorem forms_agree_loopbackPage :
    loopbackPage.IsReached ∧ IsPathText "/p//q?z=..#f" ∧ loopbackPage.ReadsBack ∧
      loopbackPage.resolve ("//" ++ loopbackPage.authority ++ "/p//q?z=..#f") =
        loopbackPage.resolve "/p//q?z=..#f" ∧
      loopbackPage.resolve (loopbackPage.scheme.name ++ "://" ++ loopbackPage.authority ++
        "/p//q?z=..#f") = loopbackPage.resolve "/p//q?z=..#f" := by
  have hparse : parse "ws://[::1]:9000/feed" = .ok loopbackPage := by decide +kernel
  have hreached : loopbackPage.IsReached := .parse hparse
  have hpath : IsPathText "/p//q?z=..#f" :=
    ⟨by decide +kernel, by decide +kernel, by decide +kernel, by decide +kernel⟩
  have hreads : loopbackPage.ReadsBack := by decide +kernel
  obtain ⟨hsame, hagree, -⟩ := forms_agree_iff hreached hpath
  have hspelled := hagree.2 ⟨hreads, by decide +kernel⟩
  exact ⟨hreached, hpath, hreads, hsame.trans hspelled, hspelled⟩

/-- **The forms of a location do not all lead to one place.** Dot segments are kept behind an
authority, and a host that has a closing bracket in it is cut there. -/
theorem forms_differ :
    (askedPage.IsReached ∧ IsPathText "/a/../b" ∧
      askedPage.resolve "/a/../b" = .ok { askedPage with path := "/b" } ∧
      askedPage.resolve ("//" ++ askedPage.authority ++ "/a/../b") =
        .ok { askedPage with path := "/a/../b" } ∧
      askedPage.resolve (askedPage.scheme.name ++ "://" ++ askedPage.authority ++ "/a/../b") =
        .ok { askedPage with path := "/a/../b" }) ∧
    ∃ base, parse "http://a]b:c:80/x" = .ok base ∧ IsPathText "/b" ∧
      base.resolve ("//" ++ base.authority ++ "/b") ≠ base.resolve "/b" := by
  have hdots : IsPathText "/a/../b" :=
    ⟨by decide +kernel, by decide +kernel, by decide +kernel, by decide +kernel⟩
  have hplain : IsPathText "/b" :=
    ⟨by decide +kernel, by decide +kernel, by decide +kernel, by decide +kernel⟩
  refine ⟨⟨askedPage_isReached, hdots, by decide +kernel, by decide +kernel, by decide +kernel⟩,
    { scheme := .http, host := "a]b:c", port := 80, path := "/x" }, by decide +kernel, hplain,
    by decide +kernel⟩

end WebClient.Endpoint
