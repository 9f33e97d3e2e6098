import WebClient.Proofs.Http.Response.Prefix
import WebClient.Proofs.Http.Response.Wire

/-!
# Responses that break off

When a connection ends inside a response whose bytes show where it ends, the part that came is not
taken for a response (`breaksOff_of_missing`). However that part was cut, nothing is given back
while it is read, and its end is an error unless nothing came at all.

Two facts carry this. A call that has not seen all of a response can be resumed where it left off,
also when it refused the line of a chunk's size for not being complete (`decode_of_missing`). And a
reader that has read the status line of a response does not come back to one before it has given the
response back (`phase_decode_ne_statusLine`), so that it never seems idle.
-/

namespace WebClient.Http.ResponseReader

/-! ### What is missing -/

/-- A call that has not seen the last byte of a response does not give it back, and can be
resumed. -/
theorem decode_of_missing {r : ResponseReader} {buffer missing : Bytes} {response : Response}
    (hwhole : r.decode (buffer ++ missing) =
      { result := .ok (some response), reader := {}, rest := [] })
    (hmissing : missing ≠ []) :
    (∀ other, (r.decode buffer).result ≠ .ok (some other)) ∧
      (r.decode buffer).reader.decode ((r.decode buffer).rest ++ missing) =
        { result := .ok (some response), reader := {}, rest := [] } := by
  fun_induction decode r buffer with
  | case1 r buffer result r' rest hs =>
    -- What the last step would have done with the missing bytes behind its own.
    rcases step_append r buffer missing with ⟨-, heq⟩ | ⟨r₁, rest₁, hwaited, -⟩ | ⟨e, hrefused, -⟩
    · -- All of the response was there, so nothing is missing.
      rw [hs] at heq
      rw [decode_of_answer heq] at hwhole
      have hrest := congrArg Answer.rest hwhole
      exact absurd (List.append_eq_nil_iff.1 hrest).2 hmissing
    · obtain ⟨rfl, rfl, rfl⟩ := by simpa only [hs, Step.answer.injEq] using hwaited
      have hcall := decode_of_answer hs
      refine ⟨fun other => by simp, ?_⟩
      have hresume := decode_resume (by rw [hcall]) (congrArg Answer.result hwhole)
      rw [hcall] at hresume
      exact hresume.trans hwhole
    · -- The line of a chunk's size was refused unread, so the next call begins where this one did.
      obtain ⟨rfl, rfl, rfl⟩ := by simpa only [hs, Step.answer.injEq] using hrefused
      exact ⟨fun other => by simp, hwhole⟩
  | case2 r buffer r' rest hs ih =>
    rw [decode_of_again (step_append_of_again hs missing)] at hwhole
    exact ih hwhole

/-! ### Where a reader stands -/

def Step.StaysInside : Step → Prop
  | .again r _ | .answer (.ok none) r _ | .answer (.error _) r _ => r.phase ≠ .statusLine
  | .answer (.ok (some _)) _ _ => True

theorem staysInside_startBody {r : ResponseReader} (hphase : r.phase ≠ .statusLine) (rest : Bytes) :
    (r.startBody rest).StaysInside := by
  unfold startBody finish
  repeat' split
  all_goals first | trivial | exact hphase | simp [Step.StaysInside]

theorem staysInside_step {r : ResponseReader} (hphase : r.phase ≠ .statusLine) (buffer : Bytes) :
    (r.step buffer).StaysInside := by
  have hrefuses : ∀ (e : ReadError) (r' : ResponseReader) (rest : Bytes), r'.phase = r.phase →
      (Step.answer (.error e) r' rest).StaysInside := by
    intro e r' rest heq
    show r'.phase ≠ .statusLine
    rwa [heq]
  have hcount (bytes : Nat) : (r.countLine bytes).phase ≠ .statusLine := by
    rwa [r.phase_countLine bytes]
  unfold step
  cases hp : r.phase with
  | statusLine => exact absurd hp hphase
  | headers =>
    refine withLine_cases r buffer _ hphase hrefuses fun line bytes rest => ?_
    split
    · exact staysInside_startBody (hcount bytes) rest
    · split <;> exact hcount bytes
  | body length =>
    simp only [List.splitAt_eq, finish]
    split
    · trivial
    · exact hphase
  | untilClose =>
    dsimp only
    split <;> exact hphase
  | chunkSize =>
    refine withLine_cases r buffer _ hphase hrefuses fun line bytes rest => ?_
    split
    · exact hcount bytes
    · split
      · exact hcount bytes
      · show (if _ then Phase.trailers else _) ≠ _
        split <;> simp
  | chunkData remaining =>
    simp only [List.splitAt_eq]
    split <;> simp [Step.StaysInside]
  | chunkEnd =>
    dsimp only
    split
    · simp [Step.StaysInside]
    · exact hphase
    · exact hphase
  | trailers =>
    refine withLine_cases r buffer _ hphase hrefuses fun line bytes rest => ?_
    split
    · trivial
    · split <;> exact hcount bytes

theorem phase_decode_ne_statusLine {r : ResponseReader} (hphase : r.phase ≠ .statusLine)
    {buffer : Bytes} (hnone : ∀ other, (r.decode buffer).result ≠ .ok (some other)) :
    (r.decode buffer).reader.phase ≠ .statusLine := by
  fun_induction decode r buffer with
  | case1 r buffer result r' rest hs =>
    have hstep := staysInside_step hphase buffer
    rw [hs] at hstep
    rcases result with e | _ | response
    · exact hstep
    · exact hstep
    · exact absurd rfl (hnone response)
  | case2 r buffer r' rest hs ih =>
    have hstep := staysInside_step hphase buffer
    rw [hs] at hstep
    exact ih hstep hnone

theorem result_of_untilClose {r : ResponseReader} (hphase : r.phase = .untilClose)
    (buffer : Bytes) (other : Response) : (r.decode buffer).result ≠ .ok (some other) := by
  rcases step_untilClose_cases hphase buffer with hs | hs <;> rw [decode_of_answer hs] <;> simp

/-! ### Reading a part of a response -/

/-- Reads a further piece, whether or not there was an error before. -/
def Drained.read (d : Drained) (piece : Bytes) : Drained :=
  (d.reader.drain (d.rest ++ piece)).behind d.responses

/-- What is so when the part `read` of a response has been read: more than its status line, or that
is still in the buffer. -/
structure Reads (t : ResponseText) (read : Bytes) (d : Drained) : Prop where
  responses_eq : d.responses = []
  resumes : ∀ missing, read ++ missing = t.bytes → d.reader.decode (d.rest ++ missing) =
    { result := .ok (some t.response), reader := {}, rest := [] }
  stands : d.reader = {} ∧ d.rest = read ∨ read ≠ [] ∧ d.reader.phase ≠ .statusLine

theorem reads_nil {t : ResponseText} (h : t.WellFormed) (hdelimited : t.body.IsDelimited) :
    Reads t [] { reader := {}, rest := [] } where
  responses_eq := rfl
  resumes := by
    intro missing heq
    have hwhole := decode_text h hdelimited []
    rwa [List.append_nil, ← heq, List.nil_append] at hwhole
  stands := .inl ⟨rfl, rfl⟩

theorem stands_decode {t : ResponseText} (h : t.WellFormed) {read missing : Bytes}
    (hcut : read ++ missing = t.bytes)
    (hnone : ∀ other, (({} : ResponseReader).decode read).result ≠ .ok (some other)) :
    (({} : ResponseReader).decode read).reader = {} ∧
        (({} : ResponseReader).decode read).rest = read ∨
      read ≠ [] ∧ (({} : ResponseReader).decode read).reader.phase ≠ .statusLine := by
  cases hline : read.splitLine? with
  | none =>
    refine .inl ?_
    have hstep : ∃ result, ({} : ResponseReader).step read = .answer result {} read := by
      simp only [step, withLine, hline]
      split <;> exact ⟨_, rfl⟩
    obtain ⟨result, hs⟩ := hstep
    rw [decode_of_answer hs]
    exact ⟨rfl, rfl⟩
  | some cut =>
    obtain ⟨line, rest⟩ := cut
    have hread := Bytes.eq_of_splitLine? hline
    have hstatus : line = Bytes.ofString t.statusText := by
      have hwhole := Bytes.splitLine?_append missing hline
      have htext : t.bytes = Bytes.ofString t.statusText ++ Bytes.crlf ++
          (t.lines.flatMap FieldLine.bytes ++ Bytes.crlf ++ t.body.bytes) := by
        simp [ResponseText.bytes, ResponseText.head]
      rw [hcut, htext, Bytes.splitLine?_of_isLine h.status_line] at hwhole
      exact (Prod.mk.inj (Option.some_inj.1 hwhole)).1.symm
    have hs := step_statusText h.wellFormedHead rest
    rw [← hstatus, ← hread] at hs
    rw [decode_of_again hs] at hnone ⊢
    refine .inr ⟨?_, phase_decode_ne_statusLine (by simp [behindStatus]) hnone⟩
    rw [hread]
    simp [Bytes.crlf]

theorem drain_of_no_response {r : ResponseReader} {buffer : Bytes}
    (hnone : ∀ other, (r.decode buffer).result ≠ .ok (some other)) :
    (r.drain buffer).responses = [] ∧ (r.drain buffer).reader = (r.decode buffer).reader ∧
      (r.drain buffer).rest = (r.decode buffer).rest := by
  rw [drain_eq, Answer.drain]
  cases hresult : (r.decode buffer).result with
  | error e => exact ⟨rfl, rfl, rfl⟩
  | ok response? =>
    cases response? with
    | none => exact ⟨rfl, rfl, rfl⟩
    | some other => exact absurd hresult (hnone other)

theorem Reads.decode {t : ResponseText} (h : t.WellFormed) {read : Bytes} {d : Drained}
    (hreads : Reads t read d) {piece missing : Bytes} (hcut : read ++ piece ++ missing = t.bytes)
    (hmissing : missing ≠ []) :
    (∀ other, (d.reader.decode (d.rest ++ piece)).result ≠ .ok (some other)) ∧
      (d.reader.decode (d.rest ++ piece)).reader.decode
          ((d.reader.decode (d.rest ++ piece)).rest ++ missing) =
        { result := .ok (some t.response), reader := {}, rest := [] } ∧
      ((d.reader.decode (d.rest ++ piece)).reader = {} ∧
          (d.reader.decode (d.rest ++ piece)).rest = read ++ piece ∨
        read ++ piece ≠ [] ∧ (d.reader.decode (d.rest ++ piece)).reader.phase ≠ .statusLine) := by
  have hwhole := hreads.resumes (piece ++ missing) (by rw [← List.append_assoc, hcut])
  rw [← List.append_assoc] at hwhole
  obtain ⟨hnone, hresume⟩ := decode_of_missing hwhole hmissing
  refine ⟨hnone, hresume, ?_⟩
  rcases hreads.stands with ⟨hfresh, hbuffer⟩ | ⟨hne, hphase⟩
  · rw [hfresh, hbuffer] at hnone ⊢
    exact stands_decode h hcut hnone
  · exact .inr ⟨by simp [hne], phase_decode_ne_statusLine hphase hnone⟩

theorem Reads.read {t : ResponseText} (h : t.WellFormed) {read : Bytes} {d : Drained}
    (hreads : Reads t read d) {piece missing : Bytes} (hcut : read ++ piece ++ missing = t.bytes)
    (hmissing : missing ≠ []) : Reads t (read ++ piece) (d.read piece) := by
  obtain ⟨hnone, hresume, hstands⟩ := hreads.decode h hcut hmissing
  obtain ⟨hresponses, hreader, hrest⟩ := drain_of_no_response hnone
  rw [← hreader, ← hrest] at hresume hstands
  refine ⟨?_, ?_, hstands⟩
  · rw [Drained.read, Drained.behind, hreads.responses_eq, hresponses]
    rfl
  · intro other hother
    obtain rfl : missing = other := List.append_cancel_left (hcut.trans hother.symm)
    exact hresume

/-- However it is cut, a part of a response is read without giving anything back. -/
theorem Reads.foldl {t : ResponseText} (h : t.WellFormed) {read : Bytes} {d : Drained}
    (hreads : Reads t read d) {pieces : List Bytes} {missing : Bytes}
    (hcut : read ++ pieces.flatten ++ missing = t.bytes) (hmissing : missing ≠ []) :
    Reads t (read ++ pieces.flatten) (pieces.foldl Drained.read d) := by
  induction pieces generalizing read d with
  | nil => simpa using hreads
  | cons piece pieces ih =>
    rw [List.flatten_cons, ← List.append_assoc] at hcut ⊢
    have hpiece : read ++ piece ++ (pieces.flatten ++ missing) = t.bytes := by
      rw [← List.append_assoc, hcut]
    exact ih (hreads.read h hpiece (by simp [hmissing])) hcut

/-- So it is when reading stops at an error, which cannot come before any bytes do. -/
theorem Reads.feed {t : ResponseText} (h : t.WellFormed) {read : Bytes} {d : Drained}
    (hreads : Reads t read d) {pieces : List Bytes} {missing : Bytes}
    (hcut : read ++ pieces.flatten ++ missing = t.bytes) (hmissing : missing ≠ []) :
    ∃ seen unseen, pieces.flatten = seen ++ unseen ∧
      Reads t (read ++ seen) (d.reader.feed d.rest pieces).1 ∧
      (unseen ≠ [] → read ++ seen ≠ []) := by
  induction pieces generalizing read d with
  | nil =>
    refine ⟨[], [], rfl, ?_, fun hne => absurd rfl hne⟩
    rw [List.append_nil, ResponseReader.feed]
    exact ⟨rfl, hreads.resumes, hreads.stands⟩
  | cons piece pieces ih =>
    rw [List.flatten_cons, ← List.append_assoc] at hcut
    have hpiece : read ++ piece ++ (pieces.flatten ++ missing) = t.bytes := by
      rw [← List.append_assoc, hcut]
    have hread := hreads.read h hpiece (by simp [hmissing])
    have hdrained : d.read piece = d.reader.drain (d.rest ++ piece) := by
      rw [Drained.read, Drained.behind, hreads.responses_eq, List.nil_append]
    rw [hdrained] at hread
    rw [ResponseReader.feed, List.flatten_cons]
    cases hfailure : (d.reader.drain (d.rest ++ piece)).failure with
    | some e =>
      refine ⟨piece, pieces.flatten, rfl, by simpa only [hfailure] using hread, fun _ hnil => ?_⟩
      -- An empty buffer is not refused, so something had come.
      obtain ⟨rfl, rfl⟩ := List.append_eq_nil_iff.1 hnil
      obtain ⟨hfresh, hbuffer⟩ := hreads.stands.resolve_right fun hinside => hinside.1 rfl
      rw [hfresh, hbuffer, List.append_nil, drain_nil] at hfailure
      cases hfailure
    | none =>
      obtain ⟨seen, unseen, hseen, hlater, hne⟩ := ih hread hcut
      refine ⟨piece ++ seen, unseen, by rw [hseen, List.append_assoc], ?_, ?_⟩
      · simp only [hread.responses_eq, List.nil_append]
        rw [← List.append_assoc]
        exact hlater
      · rwa [← List.append_assoc]

/-! ### The end of the connection -/

/-- Nothing was given back, and that the connection ends now is an error unless nothing came. -/
structure BreaksOff (read : Bytes) (d : Drained) : Prop where
  responses_eq : d.responses = []
  nothing : read = [] → (d.reader.decodeEnd d.rest).result = .ok none
  exists_error : read ≠ [] → ∃ e, (d.reader.decodeEnd d.rest).result = .error e

theorem Reads.breaksOff {t : ResponseText} (h : t.WellFormed) {read missing : Bytes} {d : Drained}
    (hreads : Reads t read d) (hcut : read ++ missing = t.bytes) (hmissing : missing ≠ []) :
    BreaksOff read d := by
  refine ⟨hreads.responses_eq, ?_, ?_⟩
  · rintro rfl
    obtain ⟨hfresh, hbuffer⟩ := hreads.stands.resolve_right fun hinside => hinside.1 rfl
    rw [hfresh, hbuffer, decodeEnd, decode_of_answer rfl]
    rfl
  · intro hne
    have hagain : read ++ [] ++ missing = t.bytes := by rw [List.append_nil, hcut]
    obtain ⟨hnone, hresume, hstands⟩ := hreads.decode h hagain hmissing
    simp only [List.append_nil] at hnone hresume hstands
    generalize hanswer : d.reader.decode d.rest = answer at hnone hresume hstands
    have hphase : answer.reader.phase ≠ .untilClose := by
      -- With what is missing, a further call completes the response without the connection's end.
      intro hphase
      exact result_of_untilClose hphase _ _ (congrArg Answer.result hresume)
    have hidle : (answer.reader.isIdle && answer.rest.isEmpty) = false := by
      rcases hstands with ⟨-, hbuffer⟩ | ⟨-, hinside⟩
      · simp [hbuffer, hne]
      · simp [isIdle, hinside]
    rw [decodeEnd, hanswer]
    cases hresult : answer.result with
    | error e => exact ⟨e, hresult⟩
    | ok response? =>
      cases response? with
      | none => exact ⟨.closedEarly, by simp only [if_neg hphase, hidle]; rfl⟩
      | some other => exact absurd hresult (hnone other)

/-- **A response that breaks off is never taken for a complete one.** However the part that came is
cut into pieces, and whether reading goes on behind an error or stops there, no response is given
back, and the end of the connection is an error unless nothing came. -/
theorem breaksOff_of_missing {t : ResponseText} (h : t.WellFormed)
    (hdelimited : t.body.IsDelimited) {pieces : List Bytes} {missing : Bytes}
    (hcut : pieces.flatten ++ missing = t.bytes) (hmissing : missing ≠ []) :
    BreaksOff pieces.flatten (pieces.foldl Drained.read { reader := {}, rest := [] }) ∧
      BreaksOff pieces.flatten (ResponseReader.feed {} [] pieces).1 := by
  have hstart := reads_nil h hdelimited
  constructor
  · exact (hstart.foldl h hcut hmissing).breaksOff h hcut hmissing
  · obtain ⟨seen, unseen, hseen, hreads, hne⟩ := hstart.feed h hcut hmissing
    rw [hseen, List.append_assoc] at hcut
    have hbreaks := hreads.breaksOff h hcut (by simp [hmissing])
    rw [List.nil_append] at hbreaks hne
    refine ⟨hbreaks.responses_eq, fun hnil => ?_, fun hsome => ?_⟩
    · rw [hseen] at hnil
      exact hbreaks.nothing (List.append_eq_nil_iff.1 hnil).1
    · refine hbreaks.exists_error fun hnil => ?_
      rw [hseen, hnil, List.nil_append] at hsome
      exact hne hsome hnil

/-- A response that breaks off in front of its last end of a line, cut inside a chunk's size. -/
theorem breaksOff_okInChunks :
    BreaksOff
        [Bytes.ofString "HTTP/1.1 200 OK\r\nServer: x\r\nTransfer-Encoding: chunked\r\n\r\n02 ;",
          Bytes.ofString "a=b\r\nhi\r\n0\r\nDigest: d\r\n"].flatten
        ([Bytes.ofString "HTTP/1.1 200 OK\r\nServer: x\r\nTransfer-Encoding: chunked\r\n\r\n02 ;",
          Bytes.ofString "a=b\r\nhi\r\n0\r\nDigest: d\r\n"].foldl Drained.read
            { reader := {}, rest := [] }) := by
  have hcut : [Bytes.ofString
        "HTTP/1.1 200 OK\r\nServer: x\r\nTransfer-Encoding: chunked\r\n\r\n02 ;",
      Bytes.ofString "a=b\r\nhi\r\n0\r\nDigest: d\r\n"].flatten ++ Bytes.crlf =
        okInChunks.text.bytes := by
    rw [okInChunks.bytes_text]
    decide +kernel
  exact (breaksOff_of_missing (okInChunks.wellFormed_text wellFormed_okInChunks) trivial hcut
    (by decide)).1

end WebClient.Http.ResponseReader
