import WebClient.Proofs.Endpoint.Resolve
import WebClient.Proofs.Endpoint.Server

/-!
# The parts of a URL

From left to right, a URL has a scheme, user information, a server and a target (`UrlParts`). The
authority, which is the user information and the server, goes on to the first slash, question mark
or number sign behind the scheme, and the user information to the last at sign of the authority. A
URL is read exactly when it can be cut in this way at a scheme that is known and a server that names
a host (`parse_eq_ok_iff`), so nothing but the server decides whom a client talks to.
-/

namespace WebClient.Endpoint

/-- The parts of a URL, the user information with the at sign behind it. -/
structure UrlParts where
  scheme : List Char
  user : List Char
  server : List Char
  target : List Char

namespace UrlParts

def behind (parts : UrlParts) : List Char :=
  parts.user ++ parts.server ++ parts.target

def text (parts : UrlParts) : List Char :=
  parts.scheme ++ schemeMark ++ parts.behind

/-- Where a URL is cut. What ends a scheme ends an authority too. -/
structure IsCut (parts : UrlParts) : Prop where
  authority : ∀ c ∈ parts.user ++ parts.server, endsScheme c = false
  target : ∀ c ∈ parts.target.head?, endsScheme c = true
  user : parts.user = [] ∨ parts.user.getLast? = some '@'
  server : '@' ∉ parts.server

end UrlParts

/-- A path, with or without a query, that begins at the root. -/
def fromRoot (target : List Char) : List Char :=
  if ['/'] <+: target then target else '/' :: target

structure UrlParts.Gives (parts : UrlParts) (e : Endpoint) : Prop where
  scheme : Text.eqIgnoringCase (String.ofList parts.scheme) e.scheme.name = true
  server : ServerNames e.scheme.defaultPort parts.server e.host.toList e.port
  host : e.host.toList ≠ []
  path : e.path.toList = dropFragment (fromRoot parts.target)

/-! ### The scheme -/

theorem splitScheme?_eq_some_iff {url behind : List Char} {scheme : Scheme} :
    splitScheme? url = some (scheme, behind) ↔ ∃ name, url = name ++ schemeMark ++ behind ∧
      Text.eqIgnoringCase (String.ofList name) scheme.name = true := by
  constructor
  · intro h
    unfold splitScheme? at h
    split at h
    · next name rest hcut =>
      obtain ⟨scheme', hname, heq⟩ := Option.map_eq_some_iff.1 h
      obtain ⟨rfl, rfl⟩ := Prod.mk.inj heq
      exact ⟨name, Text.eq_of_splitMarker? hcut, Scheme.ofName?_eq_some_iff.1 hname⟩
    · nomatch h
  · rintro ⟨name, rfl, hname⟩
    have hcolon : ':' ∉ name := by
      intro hmem
      have hlower : ':' ∈ (Text.lower (String.ofList name)).toList := by
        rw [Text.toList_lower, String.toList_ofList]
        exact List.mem_map.2 ⟨':', hmem, rfl⟩
      rw [Text.eqIgnoringCase_iff.1 hname, scheme.lower_name] at hlower
      exact scheme.not_mem_name hlower
    rw [splitScheme?, schemeMark, Text.splitMarker?_append hcolon]
    simp [Scheme.ofName?_eq_some_iff.2 hname]

/-! ### The authority and the target -/

theorem exists_isCut (scheme behind : List Char) :
    ∃ parts : UrlParts, parts.scheme = scheme ∧ parts.behind = behind ∧ parts.IsCut := by
  have hauthority : ∀ c ∈ behind.takeWhile (fun c => !endsScheme c), endsScheme c = false := by
    intro c hc
    simpa using List.mem_takeWhile_imp hc
  have htarget : ∀ c ∈ (behind.dropWhile fun c => !endsScheme c).head?, endsScheme c = true := by
    intro c hc
    have hfirst := List.head?_dropWhile_not (fun c => !endsScheme c) behind
    rw [Option.mem_def.1 hc] at hfirst
    simpa using hfirst
  have hwhole : behind.takeWhile (fun c => !endsScheme c) ++
      behind.dropWhile (fun c => !endsScheme c) = behind := List.takeWhile_append_dropWhile
  -- The at sign is looked for in the authority alone.
  cases hcut : Text.splitLast? '@' (behind.takeWhile fun c => !endsScheme c) with
  | none =>
    exact ⟨⟨scheme, [], behind.takeWhile fun c => !endsScheme c, _⟩, rfl, hwhole,
      hauthority, htarget, .inl rfl, Text.splitLast?_eq_none_iff.1 hcut⟩
  | some cut =>
    obtain ⟨heq, hserver⟩ := Text.splitLast?_eq_some_iff.1 hcut
    rw [List.append_cons] at heq
    rw [heq] at hauthority hwhole
    exact ⟨⟨scheme, cut.1 ++ ['@'], cut.2, _⟩, rfl, hwhole, hauthority, htarget, .inr (by simp),
      hserver⟩

theorem dropUserInfo_append {user server : List Char}
    (huser : user = [] ∨ user.getLast? = some '@') (hserver : '@' ∉ server) :
    dropUserInfo (user ++ server) = server := by
  rcases huser with rfl | huser
  · rw [List.nil_append, dropUserInfo, Text.splitLast?_eq_none_iff.2 hserver]
  · obtain ⟨name, rfl⟩ := List.getLast?_eq_some_iff.1 huser
    have hcut : Text.splitLast? '@' (name ++ ['@'] ++ server) = some (name, server) :=
      Text.splitLast?_eq_some_iff.2 ⟨by simp, hserver⟩
    rw [dropUserInfo, hcut]

/-- The authority ends in front of the fragment, and the target behind it is what loses it. -/
theorem cut_dropFragment {authority target : List Char}
    (hauthority : ∀ c ∈ authority, endsScheme c = false)
    (htarget : ∀ c ∈ target.head?, endsScheme c = true) :
    (dropFragment (authority ++ target)).takeWhile (fun c => !endsAuthority c) = authority ∧
      pathOf ((dropFragment (authority ++ target)).dropWhile fun c => !endsAuthority c) =
        dropFragment (fromRoot target) := by
  have hchar (c : Char) (hc : c ∈ authority) : c ≠ '/' ∧ c ≠ '?' ∧ c ≠ '#' := by
    simpa [endsScheme, and_assoc] using hauthority c hc
  have hfragment : dropFragment (authority ++ target) = authority ++ dropFragment target :=
    List.takeWhile_append_of_pos fun c hc => decide_eq_true (hchar c hc).2.2
  have hpass : ∀ c ∈ authority, (!endsAuthority c) = true := fun c hc => by
    simp [endsAuthority, hchar c hc]
  rw [hfragment, List.takeWhile_append_of_pos hpass, List.dropWhile_append_of_pos hpass]
  cases target with
  | nil => simp [dropFragment, pathOf, fromRoot]
  | cons c target =>
    rcases endsScheme_iff.1 (htarget c rfl) with rfl | rfl | rfl
    · simp [dropFragment, pathOf, fromRoot, endsAuthority]
    · simp [dropFragment, pathOf, fromRoot, endsAuthority]
    · simp [dropFragment, pathOf, fromRoot]

/-! ### Reading -/

/-- Where a path is read as a URL, the authority in front of it is read for host and port, and the
path is kept as it is written, up to its fragment. -/
def readBehind (scheme : Scheme) (authority path : List Char) : Except UrlError Endpoint :=
  match splitHostPort scheme.defaultPort authority with
  | .error e => .error e
  | .ok ([], _) => .error .missingHost
  | .ok (host, port) =>
    .ok { scheme, host := String.ofList host, port, path := String.ofList (dropFragment path) }

theorem readBehind_eq_ok_iff {scheme : Scheme} {authority path : List Char} {e : Endpoint} :
    readBehind scheme authority path = .ok e ↔
      ServerNames scheme.defaultPort authority e.host.toList e.port ∧ e.host.toList ≠ [] ∧
        e.scheme = scheme ∧ e.path.toList = dropFragment path := by
  rw [← splitHostPort_eq_ok_iff, readBehind]
  constructor
  · intro h
    split at h
    · nomatch h
    · nomatch h
    · next host port hhost hserver =>
      obtain rfl := Except.ok.inj h
      simpa using ⟨hserver, hhost⟩
  · rintro ⟨hserver, hhost, rfl, hpath⟩
    rw [hserver]
    split
    · next heq => nomatch heq
    · next heq => exact absurd (Prod.mk.inj (Except.ok.inj heq)).1 hhost
    · next heq =>
      obtain ⟨rfl, rfl⟩ := Prod.mk.inj (Except.ok.inj heq)
      simp [← hpath]

theorem parse_of_isCut {url : String} {parts : UrlParts} (hcut : parts.IsCut)
    (htext : parts.text = Text.trimChars url.toList) {scheme : Scheme}
    (hscheme : Text.eqIgnoringCase (String.ofList parts.scheme) scheme.name = true) :
    parse url = readBehind scheme parts.server (fromRoot parts.target) := by
  have hsplit : splitScheme? (Text.trimChars url.toList) = some (scheme, parts.behind) :=
    splitScheme?_eq_some_iff.2 ⟨parts.scheme, htext.symm, hscheme⟩
  obtain ⟨hauthority, htarget⟩ := cut_dropFragment hcut.authority hcut.target
  rw [parse, hsplit]
  simp only [UrlParts.behind, hauthority, htarget, dropUserInfo_append hcut.user hcut.server]
  rfl

/-- **What is read as a URL.** -/
theorem parse_eq_ok_iff {url : String} {e : Endpoint} :
    parse url = .ok e ↔ ∃ parts : UrlParts,
      parts.text = Text.trimChars url.toList ∧ parts.IsCut ∧ parts.Gives e := by
  constructor
  · intro h
    cases hsplit : splitScheme? (Text.trimChars url.toList) with
    | none =>
      rw [parse, hsplit] at h
      cases h
    | some cut =>
      obtain ⟨name, hurl, hname⟩ := splitScheme?_eq_some_iff.1 hsplit
      obtain ⟨parts, rfl, hbehind, hcut⟩ := exists_isCut name cut.2
      have htext : parts.text = Text.trimChars url.toList := by
        rw [hurl, UrlParts.text, hbehind]
      rw [parse_of_isCut hcut htext hname] at h
      obtain ⟨hserver, hhost, hscheme, hpath⟩ := readBehind_eq_ok_iff.1 h
      rw [← hscheme] at hname hserver
      exact ⟨parts, htext, hcut, hname, hserver, hhost, hpath⟩
  · rintro ⟨parts, htext, hcut, hgives⟩
    rw [parse_of_isCut hcut htext hgives.scheme]
    exact readBehind_eq_ok_iff.2 ⟨hgives.server, hgives.host, rfl, hgives.path⟩

end WebClient.Endpoint
