import WebClient.Proofs.Endpoint.DotSegments
import WebClient.Proofs.Endpoint.UrlParts

/-!
# What endpoints look like

An endpoint comes from a URL, or from a location that is resolved against an endpoint. Whatever text
they are read from, its host is not empty and holds no character that would end the authority of a
URL or stand in front of a host there, and its path begins with a slash and has no fragment
(`IsReached.hasShape`). Together with where a URL is cut, this is what connecting, the Host header
and the target of a request rest on (`hasShape_and_parts`).
-/

namespace WebClient.Endpoint

/-- The endpoint was read from a URL or from a location that such an endpoint gave. -/
inductive IsReached : Endpoint → Prop
  | parse {url : String} {e : Endpoint} (h : parse url = .ok e) : IsReached e
  | resolve {base e : Endpoint} {location : String} (hbase : IsReached base)
    (h : base.resolve location = .ok e) : IsReached e

/-- The characters that have no place in a host. -/
def isOutsideHost (c : Char) : Bool :=
  c = '/' || c = '?' || c = '#' || c = '@'

structure HasShape (e : Endpoint) : Prop where
  host_ne_nil : e.host.toList ≠ []
  host_inside : ∀ c ∈ e.host.toList, isOutsideHost c = false
  path_slash : ['/'] <+: e.path.toList
  path_unfragmented : '#' ∉ e.path.toList

theorem isOutsideHost_eq_false_iff {c : Char} :
    isOutsideHost c = false ↔ c ≠ '/' ∧ c ≠ '?' ∧ c ≠ '#' ∧ c ≠ '@' := by
  simp [isOutsideHost, and_assoc]

theorem not_mem_dropFragment (cs : List Char) : '#' ∉ dropFragment cs := by
  intro hmem
  simpa using List.mem_takeWhile_imp hmem

/-! ### The target of a URL -/

theorem slash_fromRoot (target : List Char) : ['/'] <+: fromRoot target := by
  rw [fromRoot]
  split
  · assumption
  · exact ⟨target, rfl⟩

theorem dropFragment_of_slash {cs : List Char} (h : ['/'] <+: cs) :
    ['/'] <+: dropFragment cs := by
  obtain ⟨rest, rfl⟩ := h
  exact ⟨rest.takeWhile (· ≠ '#'), by simp [dropFragment]⟩

/-! ### The path of a reference -/

theorem directory_spec {path : List Char} (h : ['/'] <+: path) :
    ∃ before after, path = before ++ '/' :: after ∧ '/' ∉ after ∧
      directory path = before ++ ['/'] := by
  have hmem : '/' ∈ path := h.subset List.mem_cons_self
  cases hcut : Text.splitLast? '/' path with
  | none => exact absurd hmem (Text.splitLast?_eq_none_iff.1 hcut)
  | some cut =>
    obtain ⟨heq, hnot⟩ := Text.splitLast?_eq_some_iff.1 hcut
    exact ⟨cut.1, cut.2, heq, hnot, by rw [directory, hcut]⟩

theorem slash_directory {path : List Char} (h : ['/'] <+: path) :
    ['/'] <+: directory path ∧ directory path ⊆ path := by
  obtain ⟨before, after, rfl, -, heq⟩ := directory_spec h
  rw [heq]
  constructor
  · cases before with
    | nil => exact List.prefix_refl _
    | cons c before =>
      obtain ⟨rest, hrest⟩ := h
      obtain ⟨rfl, -⟩ := List.cons.inj hrest
      exact ⟨before ++ ['/'], rfl⟩
  · intro c hc
    rw [List.append_cons]
    exact List.mem_append_left _ hc

theorem slash_removeDotSegments (target : List Char) : ['/'] <+: removeDotSegments target :=
  ⟨_, rfl⟩

theorem subset_removeDotSegments {target : List Char} (h : ['/'] <+: target) :
    removeDotSegments target ⊆ target := by
  have hpath : dropQuery target ⊆ target := (List.takeWhile_prefix _).subset
  have hquery : target.dropWhile (· ≠ '?') ⊆ target := (List.dropWhile_suffix _).subset
  rw [removeDotSegments_eq h]
  exact List.append_subset.2
    ⟨List.Subset.trans (rewriteDots_clean (slash_dropQuery h)).2.2.1 hpath, hquery⟩

/-- A reference behind a path gives a path again, of the characters of the two. -/
theorem resolvePath_spec {base : List Char} (h : ['/'] <+: base) (reference : List Char) :
    ['/'] <+: resolvePath base reference ∧ resolvePath base reference ⊆ base ++ reference := by
  have hquery : dropQuery base ⊆ base := (List.takeWhile_prefix _).subset
  rw [resolvePath.eq_def]
  split
  · exact ⟨h, List.subset_append_left _ _⟩
  · next rest =>
    exact ⟨slash_removeDotSegments _,
      List.Subset.trans (subset_removeDotSegments ⟨rest, rfl⟩) (List.subset_append_right _ _)⟩
  · exact ⟨(slash_dropQuery h).trans (List.prefix_append _ _),
      List.append_subset.2 ⟨List.Subset.trans hquery (List.subset_append_left _ _),
        List.subset_append_right _ _⟩⟩
  · obtain ⟨hslash, hsubset⟩ := slash_directory (slash_dropQuery h)
    have hbase : directory (dropQuery base) ⊆ base ++ reference :=
      List.Subset.trans (List.Subset.trans hsubset hquery) (List.subset_append_left _ _)
    exact ⟨slash_removeDotSegments _, List.Subset.trans
      (subset_removeDotSegments (hslash.trans (List.prefix_append _ _)))
      (List.append_subset.2 ⟨hbase, List.subset_append_right _ _⟩)⟩

/-! ### Every endpoint -/

theorem hasShape_of_parse {url : String} {e : Endpoint} (h : parse url = .ok e) : e.HasShape := by
  obtain ⟨parts, -, hcut, hgives⟩ := parse_eq_ok_iff.1 h
  refine ⟨hgives.host, fun c hc => ?_, ?_, ?_⟩
  · have hserver := hgives.server.subset hc
    have hinside := hcut.authority c (List.mem_append_right _ hserver)
    have hchar : c ≠ '/' ∧ c ≠ '?' ∧ c ≠ '#' := by
      simpa [endsScheme, and_assoc] using hinside
    exact isOutsideHost_eq_false_iff.2
      ⟨hchar.1, hchar.2.1, hchar.2.2, ne_of_mem_of_not_mem hserver hcut.server⟩
  · rw [hgives.path]
    exact dropFragment_of_slash (slash_fromRoot _)
  · rw [hgives.path]
    exact not_mem_dropFragment _

/-- A location is a URL that is read, or a path. -/
theorem resolve_cases (base : Endpoint) (location : String) :
    (∃ url, base.resolve location = parse url) ∨
      ∃ reference, '#' ∉ reference ∧ base.resolve location =
        .ok { base with path := String.ofList (resolvePath base.path.toList reference) } := by
  rw [resolve]
  split
  · exact .inl ⟨_, rfl⟩
  · exact .inl ⟨_, rfl⟩
  · exact .inr ⟨_, not_mem_dropFragment _, rfl⟩

theorem HasShape.resolve {base e : Endpoint} {location : String} (hbase : base.HasShape)
    (h : base.resolve location = .ok e) : e.HasShape := by
  rcases base.resolve_cases location with ⟨url, hurl⟩ | ⟨reference, hreference, hpath⟩
  · exact hasShape_of_parse (hurl ▸ h)
  · obtain rfl := Except.ok.inj (hpath ▸ h)
    obtain ⟨hslash, hsubset⟩ := resolvePath_spec hbase.path_slash reference
    refine ⟨hbase.host_ne_nil, hbase.host_inside, ?_, fun hmem => ?_⟩
    · rwa [String.toList_ofList]
    · rw [String.toList_ofList] at hmem
      rcases List.mem_append.1 (hsubset hmem) with hmem | hmem
      · exact hbase.path_unfragmented hmem
      · exact hreference hmem

/-- **What an endpoint looks like**, however it came about. -/
theorem IsReached.hasShape {e : Endpoint} (h : e.IsReached) : e.HasShape := by
  induction h with
  | parse hparse => exact hasShape_of_parse hparse
  | resolve _ hresolve ih => exact ih.resolve hresolve

/-- **What is put on the wire.** Every endpoint that is read from a URL, or from locations behind
one, has a host and a path that hold nothing of the other parts of a URL. A URL is read exactly when
it can be cut behind the last at sign of its authority, which the first slash, question mark or
number sign ends, at a server that names the endpoint's host and port. -/
theorem hasShape_and_parts :
    (∀ e : Endpoint, e.IsReached → e.HasShape) ∧
      ∀ (url : String) (e : Endpoint), parse url = .ok e ↔ ∃ parts : UrlParts,
        parts.text = Text.trimChars url.toList ∧ parts.IsCut ∧ parts.Gives e :=
  ⟨fun _ => IsReached.hasShape, fun _ _ => parse_eq_ok_iff⟩

/-- The parts of a URL in which other servers stand before and behind its own. -/
def disguisedParts : UrlParts where
  scheme := "WS".toList
  user := "[::1]:80@a.example@".toList
  server := "b.example:8080".toList
  target := "?next=http://c@d.example/#@e.example".toList

def disguisedPage : Endpoint :=
  { scheme := .ws, host := "b.example", port := 8080, path := "/?next=http://c@d.example/" }

theorem hasShape_and_parts_disguised :
    disguisedParts.IsCut ∧ disguisedParts.Gives disguisedPage ∧
      parse (" " ++ String.ofList disguisedParts.text ++ "\n") = .ok disguisedPage ∧
      ∃ e, disguisedPage.resolve "./login?b=@#//c.example" = .ok e ∧ e.IsReached ∧ e.HasShape := by
  obtain ⟨hshape, hparts⟩ := hasShape_and_parts
  have hauthority : (disguisedParts.user ++ disguisedParts.server).any endsScheme = false := by
    decide +kernel
  have htarget : disguisedParts.target.head?.all endsScheme = true := by decide +kernel
  have hcut : disguisedParts.IsCut :=
    ⟨fun c hc => eq_false_of_ne_true (List.any_eq_false.1 hauthority c hc),
      fun c hc => (Option.all_eq_true ..).1 htarget c hc, by decide +kernel, by decide +kernel⟩
  have hscheme : Text.eqIgnoringCase (String.ofList disguisedParts.scheme)
      disguisedPage.scheme.name = true := by
    rw [Text.eqIgnoringCase_iff_toList, String.toList_ofList]
    decide +kernel
  have hgives : disguisedParts.Gives disguisedPage :=
    ⟨hscheme, splitHostPort_eq_ok_iff.1 (by decide +kernel), by decide +kernel, by decide +kernel⟩
  have hparse := (hparts (" " ++ String.ofList disguisedParts.text ++ "\n") disguisedPage).2
    ⟨disguisedParts, by decide +kernel, hcut, hgives⟩
  have hresolve : disguisedPage.resolve "./login?b=@#//c.example" =
      .ok { disguisedPage with path := "/login?b=@" } := by decide +kernel
  have hreached := IsReached.resolve (.parse hparse) hresolve
  exact ⟨hcut, hgives, hparse, _, hresolve, hreached, hshape _ hreached⟩

end WebClient.Endpoint
