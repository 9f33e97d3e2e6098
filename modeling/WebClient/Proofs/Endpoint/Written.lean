import WebClient.Proofs.Endpoint.Forms

/-!
# Endpoints as they are written

An endpoint is written as a URL, and its authority alone in a Host header. Reading either gives the
endpoint back when the authority reads back (`ReadsBack`) and, for the URL, when its path has no
blanks at the end (`url_reads_back_iff`). Not every URL gives such an endpoint: a host may have
brackets in it that are taken for the ones around an address, and blanks in front of a fragment are
not at the end of the URL that is read, but of the one that is written.
-/

namespace WebClient.Endpoint

/-- A URL that is written is read up to the blanks at its end, if its authority is. -/
theorem parse_url_eq_ok_iff {e : Endpoint} (h : e.HasShape) (path : String) :
    parse e.url = .ok { e with path } ↔ e.ReadsBack ∧ path = Text.trim e.path := by
  have hunfragmented : dropFragment (Text.trimChars e.path.toList) =
      Text.trimChars e.path.toList := by
    refine List.takeWhile_eq_self_iff.2 fun c hc => ?_
    have hmem := (Text.trimChars_infix _).subset hc
    simpa using ne_of_mem_of_not_mem hmem h.path_unfragmented
  have hread := readBehind_eq_iff h (Text.trimChars e.path.toList) path.toList
  rw [String.ofList_toList, hunfragmented] at hread
  rw [url, parse_spelled h h.path_slash, hread, ← String.toList_inj, Text.toList_trim,
    eq_comm (a := path.toList)]

/-- **When what is written reads back.** For every endpoint that a client comes to, the URL that it
is written as gives the endpoint exactly when its authority reads back and its path does not end
with blanks. The authority by itself names the endpoint's host and port, and nothing else, under the
first of these conditions; where it does, the URL loses the blanks and nothing more, and where it
does not, the URL leads elsewhere or nowhere. -/
theorem url_reads_back_iff {e : Endpoint} (h : e.IsReached) :
    (parse e.url = .ok e ↔ e.ReadsBack ∧ Text.trim e.path = e.path) ∧
      ((∀ host port, ServerNames e.scheme.defaultPort e.authority.toList host port ↔
        host = e.host.toList ∧ port = e.port) ↔ e.ReadsBack) ∧
      (e.ReadsBack → parse e.url = .ok { e with path := Text.trim e.path }) ∧
      (¬ e.ReadsBack → ∀ e', parse e.url = .ok e' → e'.host ≠ e.host ∨ e'.port ≠ e.port) := by
  have hshape := h.hasShape
  refine ⟨?_, ⟨fun hnames => ?_, fun hreads host port => ⟨fun hnames => ?_, ?_⟩⟩, fun hreads => ?_,
    fun hreads e' hparse => ?_⟩
  · rw [eq_comm (a := Text.trim e.path)]
    exact parse_url_eq_ok_iff hshape e.path
  · exact e.serverNames_authority_iff.1 ((hnames _ _).2 ⟨rfl, rfl⟩)
  · exact hnames.unique (e.serverNames_authority_iff.2 hreads)
  · rintro ⟨rfl, rfl⟩
    exact e.serverNames_authority_iff.2 hreads
  · exact (parse_url_eq_ok_iff hshape _).2 ⟨hreads, rfl⟩
  · rw [url, parse_spelled hshape hshape.path_slash, readBehind_eq_ok_iff] at hparse
    by_contra hsame
    obtain ⟨hhost, hport⟩ := not_or.1 hsame
    rw [not_not.1 hhost, not_not.1 hport] at hparse
    exact hreads (e.serverNames_authority_iff.1 hparse.1)

/-- A secure address between brackets, written with what an endpoint does not keep. -/
theorem url_reads_back_address :
    ∃ e, parse "WSS://user@[::1]:443?x=[y]#z" = .ok e ∧ e.IsReached ∧ e.url = "wss://[::1]/?x=[y]" ∧
      parse e.url = .ok e ∧ ∀ host port,
        ServerNames e.scheme.defaultPort e.authority.toList host port →
          host = e.host.toList ∧ port = e.port := by
  have hparse : parse "WSS://user@[::1]:443?x=[y]#z" =
      .ok { scheme := .wss, host := "::1", port := 443, path := "/?x=[y]" } := by decide +kernel
  have hreads : ReadsBack { scheme := .wss, host := "::1", port := 443, path := "/?x=[y]" } := by
    decide +kernel
  obtain ⟨hback, hnames, -⟩ := url_reads_back_iff (.parse hparse)
  exact ⟨_, hparse, .parse hparse, by decide +kernel, hback.2 ⟨hreads, by decide +kernel⟩,
    fun host port => (hnames.2 hreads host port).1⟩

/-- **URLs that are written otherwise than they are read.** A host with a closing bracket in it is
cut there, one that begins with an opening bracket is taken for an address that does not end, and a
path loses the blanks that stood in front of a fragment. -/
theorem url_reads_otherwise :
    (∃ e, parse "http://a]b:c:80/x" = .ok e ∧ e.url = "http://[a]b:c]/x" ∧
      parse e.url = .ok { e with host := "a" } ∧ e.host = "a]b:c") ∧
    (∃ e, parse "http://[[a]/x" = .ok e ∧ e.url = "http://[a/x" ∧
      parse e.url = .error .unterminatedBracket) ∧
    (∃ e, parse "http://h/a #x" = .ok e ∧ e.url = "http://h/a " ∧
      parse e.url = .ok { e with path := "/a" } ∧ e.path = "/a ") := by
  refine ⟨⟨⟨.http, "a]b:c", 80, "/x"⟩, ?_, ?_, ?_, rfl⟩, ⟨⟨.http, "[a", 80, "/x"⟩, ?_, ?_, ?_⟩,
    ⟨.http, "h", 80, "/a "⟩, ?_, ?_, ?_, rfl⟩ <;> decide +kernel

end WebClient.Endpoint
