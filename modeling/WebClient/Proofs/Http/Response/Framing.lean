import WebClient.Proofs.Http.Response.Account
import WebClient.Proofs.Http.Response.Grammar
import WebClient.Proofs.Http.Response.Prefix

/-!
# How a body is framed

The fields in front of a body decide how it is read. A body comes in chunks when the word "chunked"
stands anywhere in a transfer coding, also inside another word, and otherwise the first length that
is stated counts, a plus sign in front of it included (`framing_of_answer`).

A reader on the other side of a gateway may see this differently: it looks for the coding among the
elements of the list, compares all lengths, and takes no plus sign. `FramedAsStated` says that a
body was read as such a reader would read it. That is so exactly when the fields are unambiguous
(`Headers.IsUnambiguous`), and the last section shows fields that are not.
-/

namespace WebClient.Http

open Text (Spells)

/-- A value is read as a number of bytes: blanks around it and a plus sign in front make no
difference. -/
def ReadsAs (value : String) (length : Nat) : Prop :=
  Spells 10 length (Text.trimChars value.toList) ∨
    ∃ digits, Text.trimChars value.toList = '+' :: digits ∧ Spells 10 length digits

/-- Every reader comes to the same framing: where the chunked coding is mentioned, it is an element
of a list of codings, and the lengths that are stated otherwise are digits for one and the same
number. -/
structure Headers.IsUnambiguous (fields : Headers) : Prop where
  chunked : ∀ value ∈ fields.values "Transfer-Encoding",
    "chunked".toList <:+: (Text.lower value).toList →
      fields.hasElement "Transfer-Encoding" "chunked" = true
  length : fields.hasElement "Transfer-Encoding" "chunked" = false →
    ∃ length, ∀ value ∈ fields.values "Content-Length", Spells 10 length value.toList

namespace ResponseReader

/-! ### What the fields say -/

theorem head?_of_statedLength {headers : Headers} {length : Nat}
    (h : statedLength headers = .ok (some length)) :
    ∃ value ∈ (headers.values "Content-Length").head?, ReadsAs value length := by
  unfold statedLength at h
  split at h
  · nomatch h
  · next value hvalue =>
    rw [Headers.get?_eq_head?_values, Headers.values_congr lower_contentLength] at hvalue
    split at h
    · next n hread =>
      obtain rfl := Option.some.inj (Except.ok.inj h)
      exact ⟨value, hvalue, (Text.numeral?_eq_some_iff.1 hread).2⟩
    · nomatch h

theorem values_of_statedLength {headers : Headers} (h : statedLength headers = .ok none) :
    headers.values "Content-Length" = [] := by
  unfold statedLength at h
  split at h
  · next hnone =>
    rw [Headers.get?_eq_head?_values, Headers.values_congr lower_contentLength] at hnone
    exact List.head?_eq_none_iff.1 hnone
  · split at h <;> nomatch h

/-- What stands in a phase, given the fields in front of the body. -/
def Shows (fields : Headers) : Phase → Prop
  | .statusLine | .headers => True
  | .body length => isChunked fields = false ∧ statedLength fields = .ok (some length)
  | .untilClose => isChunked fields = false ∧ statedLength fields = .ok none
  | .chunkSize | .chunkData _ | .chunkEnd | .trailers => isChunked fields = true

theorem shows_of_inChunks {fields : Headers} {phase : Phase} (h : phase.inChunks = true) :
    Shows fields phase ↔ isChunked fields = true := by
  cases phase <;> first | exact Iff.rfl | nomatch h

theorem Opens.shows {fields : Headers} {phase : Phase} (h : Opens fields phase) :
    Shows fields phase := by
  cases h with
  | chunked hchunked => exact hchunked
  | sized hchunked hlength => exact ⟨hchunked, hlength⟩
  | untilClose hchunked hlength => exact ⟨hchunked, hlength⟩

/-! ### The account of the body -/

/-- The reader has stood in a body that comes in chunks. -/
def UsesChunks (places : List Place) : Prop :=
  ∃ place ∈ places, place.reader.phase.inChunks = true

/-- What the places since the last response say of the body of the next. -/
structure Frames (places : List Place) (r : ResponseReader) : Prop where
  shown : Shows (fieldsIn .headers places) r.phase
  not_usesChunks : r.phase.inChunks = false → ¬UsesChunks places

/-- How the body of a response was read. -/
structure FramedBy (fields : Headers) (places : List Place) (response : Response) : Prop where
  usesChunks_iff : UsesChunks places ↔ isChunked fields = true
  length_eq : ¬UsesChunks places →
    statedLength fields = .ok none ∨ statedLength fields = .ok (some response.body.length)

variable {r r' : ResponseReader} {buffer : Bytes} {places : List Place}

theorem usesChunks_append : UsesChunks (places ++ [⟨r, buffer⟩]) ↔
    UsesChunks places ∨ r.phase.inChunks = true := by
  simp [UsesChunks, or_and_right, exists_or]

theorem fieldsIn_of_phase_ne {phase : Phase} (h : r.phase ≠ phase) :
    fieldsIn phase (places ++ [⟨r, buffer⟩]) = fieldsIn phase places := by
  rw [fieldsIn, linesIn_append, linesIn_of_phase_ne h, List.append_nil, fieldsIn]

theorem fieldsIn_of_emptyLine {phase : Phase} (h : r.phase = phase)
    (hline : r.headLine? buffer = some []) :
    fieldsIn phase (places ++ [⟨r, buffer⟩]) = fieldsIn phase places := by
  rw [fieldsIn, linesIn_append, linesIn_of_phase h, hline, List.filterMap_append, fieldsIn]
  exact List.append_nil _

/-- At the end of the head, the reader has the fields on its lines. -/
theorem Follows.headers_at_end (h : Follows places r) (hphase : r.phase = .headers)
    (hfit : (r.pastLine []).headBytes ≤ maxHeadBytes) : r.headers = fieldsIn .headers places := by
  have htrailers : fieldsIn .trailers places = [] := by
    rw [fieldsIn, h.no_trailers (by simp [hphase]), List.filterMap_nil]
  have hle : r.headBytes ≤ maxHeadBytes := Nat.le_trans (Nat.le_add_right _ _) hfit
  rw [h.headers_eq hle, htrailers, List.append_nil]

namespace Frames

theorem past (h : Frames places r) (hphase : r.phase ≠ .headers)
    (hshows : ∀ fields, Shows fields r.phase → Shows fields r'.phase)
    (hchunks : r'.phase.inChunks = false → r.phase.inChunks = false) :
    Frames (places ++ [⟨r, buffer⟩]) r' where
  shown := by
    rw [fieldsIn_of_phase_ne hphase]
    exact hshows _ h.shown
  not_usesChunks := fun hout huses => by
    rcases usesChunks_append.1 huses with hbefore | hhere
    · exact h.not_usesChunks (hchunks hout) hbefore
    · exact absurd hhere (by simp [hchunks hout])

theorem inChunks (h : Frames places r) (hphase : r.phase.inChunks = true)
    (hnext : r'.phase.inChunks = true) : Frames (places ++ [⟨r, buffer⟩]) r' :=
  h.past (by intro heq; simp [heq, Phase.inChunks] at hphase)
    (fun _ hshows => (shows_of_inChunks hnext).2 ((shows_of_inChunks hphase).1 hshows))
    fun hout => absurd hout (by simp [hnext])

theorem inHead (h : Frames places r) (hphase : r.phase.inChunks = false)
    (hnext : r'.phase = .statusLine ∨ r'.phase = .headers) :
    Frames (places ++ [⟨r, buffer⟩]) r' where
  shown := by rcases hnext with hp | hp <;> rw [hp] <;> trivial
  not_usesChunks := fun _ huses => by
    rcases usesChunks_append.1 huses with hbefore | hhere
    · exact h.not_usesChunks hphase hbefore
    · exact absurd hhere (by simp [hphase])

theorem stays (h : Frames places r) (hnext : r'.phase = r.phase) :
    Frames (places ++ [⟨r, buffer⟩]) r' := by
  by_cases hphase : r.phase = .headers
  · exact h.inHead (by rw [hphase]; rfl) (.inr (hnext.trans hphase))
  · exact h.past hphase (by simp [hnext]) (by simp [hnext])

theorem framedBy_inChunks (h : Frames places r) (hphase : r.phase.inChunks = true)
    (response : Response) :
    FramedBy (fieldsIn .headers (places ++ [⟨r, buffer⟩])) (places ++ [⟨r, buffer⟩]) response := by
  have huses : UsesChunks (places ++ [⟨r, buffer⟩]) := usesChunks_append.2 (.inr hphase)
  have hstays : Frames (places ++ [⟨r, buffer⟩]) r := h.inChunks hphase hphase
  have hchunked := (shows_of_inChunks hphase).1 hstays.shown
  exact ⟨iff_of_true huses hchunked, fun hnot => absurd huses hnot⟩

theorem framedBy {response : Response} {fields : Headers} (huses : ¬UsesChunks places)
    (hchunked : isChunked fields = false)
    (hlength : statedLength fields = .ok none ∨
      statedLength fields = .ok (some response.body.length)) : FramedBy fields places response :=
  ⟨iff_of_false huses (by simp [hchunked]), fun _ => hlength⟩

theorem leaves (h : Frames places r) (hlimits : r.WithinLimits) (hfollows : Follows places r)
    {step : Step} (hmoves : Moves r buffer step) :
    step.Leaves (Frames (places ++ [⟨r, buffer⟩])) fun response =>
      isBodiless response.status = false →
        FramedBy (fieldsIn .headers (places ++ [⟨r, buffer⟩])) (places ++ [⟨r, buffer⟩])
          response := by
  have hstays : Frames (places ++ [⟨r, buffer⟩]) r := h.stays rfl
  have hout := hstays.not_usesChunks
  cases hmoves with
  | refuses | refusesLine | waits | skipsLine | readsField | gathers | gathersRest =>
    exact h.stays rfl
  | readsStatus hphase => exact h.inHead (by rw [hphase]; rfl) (.inr rfl)
  | opensBody hphase hline hfit hbody hopens =>
    rw [hfollows.headers_at_end hphase hfit] at hopens
    refine ⟨?_, fun _ => hout (by rw [hphase]; rfl)⟩
    rw [fieldsIn_of_emptyLine hphase hline]
    exact hopens.shows
  | endsHead hphase hline hfit hends =>
    intro hbody
    obtain ⟨hchunked, hlength⟩ := hends hbody
    have hempty : r.response.body.length = 0 := by
      rw [length_body_response, hlimits.body_empty (.inr hphase)]
      rfl
    rw [hfollows.headers_at_end hphase hfit] at hchunked hlength
    rw [fieldsIn_of_emptyLine hphase hline]
    exact framedBy (hout (by rw [hphase]; rfl)) hchunked (.inr (by rw [hlength, hempty]))
  | @completes length taken rest hphase htaken =>
    intro _
    have hshown := h.shown
    rw [hphase] at hshown
    have hfull : (r.addBody taken).response.body.length = length := by
      rw [length_body_response, size_addBody, htaken]
    rw [fieldsIn_of_phase_ne (by simp [hphase])]
    exact framedBy (hout (by rw [hphase]; rfl)) hshown.1 (.inr (by rw [hshown.2, hfull]))
  | readsSize hphase =>
    refine h.inChunks (by rw [hphase]; rfl) ?_
    dsimp only
    split <;> rfl
  | gathersChunk hphase | completesChunk hphase | leavesChunk hphase =>
    exact h.inChunks (by rw [hphase]; rfl) rfl
  | endsTrailers hphase => exact fun _ => h.framedBy_inChunks (by rw [hphase]; rfl) _

end Frames

/-- Within its limits, every reader has an account of its head and of its body. -/
theorem isAccount_frames :
    IsAccount (fun places r => (r.WithinLimits ∧ Follows places r) ∧ Frames places r)
      (fun places response =>
        (response.body.length ≤ maxBodyBytes ∧ ReadFrom places response) ∧
          (isBodiless response.status = false →
            FramedBy (fieldsIn .headers places) places response)) where
  new := ⟨isAccount_follows.new, trivial, fun _ => by simp [UsesChunks]⟩
  step := by
    rintro places r ⟨hfollows, hframes⟩ buffer
    exact (isAccount_follows.step hfollows buffer).and
      (hframes.leaves hfollows.1 hfollows.2 (moves_step hfollows.1 buffer))
  atEnd := by
    rintro places r ⟨hfollows, hframes⟩ hphase
    refine ⟨isAccount_follows.atEnd hfollows hphase, fun _ => ?_⟩
    have hshown := hframes.shown
    rw [hphase] at hshown
    exact Frames.framedBy (hframes.not_usesChunks (by rw [hphase]; rfl)) hshown.1 (.inl hshown.2)

/-! ### What may be ambiguous -/

/-- A body was read as its fields plainly state: in chunks only where the chunked coding is an
element of the list, and otherwise with all the lengths that are stated. -/
structure FramedAsStated (places : List Place) (response : Response) : Prop where
  chunked : UsesChunks places →
    (fieldsIn .headers places).hasElement "Transfer-Encoding" "chunked" = true
  length : (fieldsIn .headers places).hasElement "Transfer-Encoding" "chunked" = false →
    ∀ value ∈ (fieldsIn .headers places).values "Content-Length",
      Spells 10 response.body.length value.toList

theorem eq_of_readsAs {value : String} {m n : Nat} (h : ReadsAs value m)
    (hspells : Spells 10 n value.toList) : m = n := by
  rw [ReadsAs, hspells.trimChars_eq] at h
  rcases h with hdigits | ⟨digits, hplus, -⟩
  · exact hdigits.eq hspells
  · have hsign : '+' ∉ value.toList := hspells.not_mem (by decide)
    exact absurd (by simp [hplus]) hsign

theorem framedAsStated_iff {response : Response}
    (h : FramedBy (fieldsIn .headers places) places response) :
    FramedAsStated places response ↔ (fieldsIn .headers places).IsUnambiguous := by
  constructor
  · intro hstated
    refine ⟨fun value hvalue hmarker => hstated.chunked ?_, fun hnot => ⟨_, hstated.length hnot⟩⟩
    exact h.usesChunks_iff.2 (isChunked_iff.2 ⟨value, hvalue, hmarker⟩)
  · intro hplain
    have hchunked : UsesChunks places →
        (fieldsIn .headers places).hasElement "Transfer-Encoding" "chunked" = true := fun huses =>
      have ⟨value, hvalue, hmarker⟩ := isChunked_iff.1 (h.usesChunks_iff.1 huses)
      hplain.chunked value hvalue hmarker
    refine ⟨hchunked, fun hnot => ?_⟩
    obtain ⟨length, hspells⟩ := hplain.length hnot
    rcases h.length_eq fun huses => absurd (hchunked huses) (by simp [hnot]) with hnone | hsome
    · simp [values_of_statedLength hnone]
    · obtain ⟨value, hfirst, hreads⟩ := head?_of_statedLength hsome
      rwa [eq_of_readsAs hreads (hspells value (List.mem_of_head? hfirst))]

/-! ### Streams with ambiguous fields -/

/-- The places that a call goes through behind its first, step by step, and what it comes to. -/
inductive Runs : Place → List Place → Answer → Prop
  | last {place : Place} {result : Except ReadError (Option Response)} {r : ResponseReader}
      {rest : Bytes} (h : place.reader.step place.buffer = .answer result r rest) :
      Runs place [] ⟨result, r, rest⟩
  | next {place behind : Place} {places : List Place} {answer : Answer}
      (h : place.reader.step place.buffer = .again behind.reader behind.buffer)
      (hruns : Runs behind places answer) : Runs place (behind :: places) answer

namespace Runs

variable {place : Place} {answer : Answer}

theorem path_eq (h : Runs place places answer) :
    path place.reader place.buffer = place :: places := by
  induction h with
  | last h => exact path_of_answer h
  | next h _ ih => rw [path_of_again h, ih]

theorem decode_eq (h : Runs place places answer) :
    place.reader.decode place.buffer = answer := by
  induction h with
  | last h => exact decode_of_answer h
  | next h _ ih => rw [decode_of_again h, ih]

end Runs

def behindFields (fields : Headers) (headBytes : Nat) (phase : Phase) : ResponseReader :=
  { phase, status := 200, reason := some "OK", headers := fields, headBytes }

/-- The end of a head and a body of one byte, of which more is there than is read. -/
theorem runs_oneByte {fields : Headers} {headBytes : Nat} (hfit : headBytes + 2 ≤ maxHeadBytes)
    (hchunked : isChunked fields = false) (hlength : statedLength fields = .ok (some 1))
    (rest : Bytes) :
    Runs ⟨behindFields fields headBytes .headers, Bytes.crlf ++ ([97] ++ rest)⟩
      [⟨behindFields fields (headBytes + 2) (.body 1), [97] ++ rest⟩]
      ⟨.ok (some { status := 200, reason := some "OK", headers := fields, body := [97] }),
        {}, rest⟩ := by
  have hbody : isBodiless 200 = false := by decide
  refine .next ?_ (.last (step_ofLength rfl rfl rest))
  rw [step_emptyLine_headers rfl hfit, startBody]
  simp only [behindFields, hbody, hchunked, hlength, Bool.false_eq_true, if_false]
  rfl

def unchunkedText : String :=
  "HTTP/1.1 200 OK\r\nTransfer-Encoding: unchunked\r\n\r\n0\r\n\r\n"

def twoLengthsText : String :=
  "HTTP/1.1 200 OK\r\nContent-Length: 1\r\nContent-Length: 2\r\n\r\nab"

def signedLengthText : String :=
  "HTTP/1.1 200 OK\r\nContent-Length: +1\r\n\r\na"

theorem runs_unchunked :
    let fields : Headers := [⟨"Transfer-Encoding", "unchunked"⟩]
    Runs ⟨{}, Bytes.ofString unchunkedText⟩
      [⟨behindFields [] 17 .headers,
          Bytes.ofString "Transfer-Encoding: unchunked\r\n\r\n0\r\n\r\n"⟩,
        ⟨behindFields fields 47 .headers, Bytes.ofString "\r\n0\r\n\r\n"⟩,
        ⟨behindFields fields 49 .chunkSize, Bytes.ofString "0\r\n\r\n"⟩,
        ⟨behindFields fields 49 .trailers, Bytes.crlf⟩]
      ⟨.ok (some { status := 200, reason := some "OK", headers := fields }), {}, []⟩ := by
  have hlower : (Text.lower "unchunked").toList = "unchunked".toList := by simp [Text.lower]
  have hchunked : isChunked [⟨"Transfer-Encoding", "unchunked"⟩] = true :=
    isChunked_iff.2 ⟨"unchunked", by decide +kernel, by rw [hlower]; decide⟩
  refine .next rfl (.next rfl (.next ?_ (.next rfl (.last rfl))))
  refine (step_emptyLine_headers rfl (by decide) (Bytes.ofString "0\r\n\r\n")).trans ?_
  rw [startBody, if_neg (by decide), behindFields, if_pos hchunked]
  rfl

theorem runs_twoLengths :
    let fields : Headers := [⟨"Content-Length", "1"⟩, ⟨"Content-Length", "2"⟩]
    Runs ⟨{}, Bytes.ofString twoLengthsText⟩
      [⟨behindFields [] 17 .headers,
          Bytes.ofString "Content-Length: 1\r\nContent-Length: 2\r\n\r\nab"⟩,
        ⟨behindFields (fields.take 1) 36 .headers, Bytes.ofString "Content-Length: 2\r\n\r\nab"⟩,
        ⟨behindFields fields 55 .headers, Bytes.ofString "\r\nab"⟩,
        ⟨behindFields fields 57 (.body 1), Bytes.ofString "ab"⟩]
      ⟨.ok (some { status := 200, reason := some "OK", headers := fields, body := [97] }), {},
        [98]⟩ := by
  refine .next rfl (.next rfl (.next rfl (runs_oneByte (by decide) ?_ ?_ [98])))
  · exact isChunked_of_not_has (by decide +kernel)
  · have hfirst : (Headers.values [⟨"Content-Length", "1"⟩, ⟨"Content-Length", "2"⟩]
        "Content-Length").head? = some "1" := by decide +kernel
    exact statedLength_of_head? hfirst (by decide +kernel)

theorem runs_signedLength :
    let fields : Headers := [⟨"Content-Length", "+1"⟩]
    Runs ⟨{}, Bytes.ofString signedLengthText⟩
      [⟨behindFields [] 17 .headers, Bytes.ofString "Content-Length: +1\r\n\r\na"⟩,
        ⟨behindFields fields 37 .headers, Bytes.ofString "\r\na"⟩,
        ⟨behindFields fields 39 (.body 1), Bytes.ofString "a"⟩]
      ⟨.ok (some { status := 200, reason := some "OK", headers := fields, body := [97] }), {},
        []⟩ := by
  refine .next rfl (.next rfl (runs_oneByte (by decide) ?_ ?_ []))
  · exact isChunked_of_not_has (by decide +kernel)
  · have hfirst : (Headers.values [⟨"Content-Length", "+1"⟩] "Content-Length").head? =
        some "+1" := by decide +kernel
    exact statedLength_of_head? hfirst (by decide +kernel)

/-! ### The framing of a response -/

/-- **How the body of a response was read**, if its status has room for one. It was read in chunks
exactly where a transfer coding mentions them, and otherwise to the first length that is stated.
The body was read as its fields plainly state exactly when they are unambiguous. -/
theorem Session.framing_of_answer (calls : List Call) {call : Call} {answer : Answer}
    {response : Response} (hanswer : (Session.ofCalls calls).answer? call = some answer)
    (hresult : answer.result = .ok (some response)) (hbody : isBodiless response.status = false) :
    let places := (Session.ofCalls calls).ahead
    let fields := fieldsIn .headers places
    fields <+: response.headers ∧
      (UsesChunks places ↔ ∃ value ∈ fields.values "Transfer-Encoding",
        "chunked".toList <:+: (Text.lower value).toList) ∧
      (¬UsesChunks places → ∀ value ∈ (fields.values "Content-Length").head?,
        ReadsAs value response.body.length) ∧
      (FramedAsStated places response ↔ fields.IsUnambiguous) := by
  intro places fields
  have hleaves := isAccount_frames.answer? (isAccount_frames.ofCalls calls) hanswer
  rw [Answer.Leaves, hresult] at hleaves
  obtain ⟨⟨-, hread⟩, hframed⟩ := hleaves
  have hframed := hframed hbody
  refine ⟨⟨_, hread.headers_eq.symm⟩, hframed.usesChunks_iff.trans isChunked_iff, ?_,
    framedAsStated_iff hframed⟩
  intro hnot value hvalue
  rcases hframed.length_eq hnot with hnone | hsome
  · simp [fields, places, values_of_statedLength hnone] at hvalue
  · obtain ⟨first, hfirst, hreads⟩ := head?_of_statedLength hsome
    obtain rfl := Option.mem_unique hfirst hvalue
    exact hreads

theorem Session.framing_twoLengths :
    let s := Session.ofCalls [.append (Bytes.ofString twoLengthsText)]
    let fields : Headers := [⟨"Content-Length", "1"⟩, ⟨"Content-Length", "2"⟩]
    let response : Response :=
      { status := 200, reason := some "OK", headers := fields, body := [97] }
    s.answer? .decode = some ⟨.ok (some response), {}, [98]⟩ ∧ isBodiless response.status = false ∧
      ¬UsesChunks s.ahead ∧ ReadsAs "1" 1 ∧
      (FramedAsStated s.ahead response ↔ fields.IsUnambiguous) := by
  intro s fields response
  have hanswer : s.answer? .decode = some ⟨.ok (some response), {}, [98]⟩ :=
    congrArg some runs_twoLengths.decode_eq
  have hbody : isBodiless response.status = false := by decide
  have hahead : s.ahead = _ := runs_twoLengths.path_eq
  have hfields : fieldsIn .headers s.ahead = fields := by rw [hahead]; rfl
  obtain ⟨-, hchunks, hfirst, hiff⟩ := framing_of_answer _ hanswer rfl hbody
  rw [hfields] at hchunks hfirst hiff
  have hno : fields.values "Transfer-Encoding" = [] := by decide +kernel
  have hnot : ¬UsesChunks s.ahead := by
    rw [hchunks, hno]
    simp
  exact ⟨hanswer, hbody, hnot, hfirst hnot "1" (by decide +kernel), hiff⟩

/-- A stream that is read as a response otherwise than its fields plainly state. -/
def Misframed (text : String) : Prop :=
  let s := Session.ofCalls [.append (Bytes.ofString text)]
  ∃ answer response, s.answer? .decode = some answer ∧ answer.result = .ok (some response) ∧
    isBodiless response.status = false ∧ ¬FramedAsStated s.ahead response

theorem Runs.misframed {text : String} {response : Response} {rest : Bytes}
    (h : Runs ⟨{}, Bytes.ofString text⟩ places ⟨.ok (some response), {}, rest⟩)
    (hbody : isBodiless response.status = false)
    (hnot : ¬FramedAsStated (⟨{}, Bytes.ofString text⟩ :: places) response) : Misframed text := by
  refine ⟨_, response, congrArg some h.decode_eq, rfl, hbody, ?_⟩
  rw [← h.path_eq] at hnot
  exact hnot

/-- **Three ambiguous framings**: chunks of a coding that is not the chunked one, a body that has
one of two lengths only, and a length that is not written in digits. -/
theorem misframed_streams : Misframed unchunkedText ∧ Misframed twoLengthsText ∧
    Misframed signedLengthText := by
  refine ⟨runs_unchunked.misframed (by decide) fun h => ?_,
    runs_twoLengths.misframed (by decide) fun h => ?_,
    runs_signedLength.misframed (by decide) fun h => ?_⟩
  · have huses := h.chunked ⟨_, List.mem_of_getLast? rfl, rfl⟩
    have hnot : Headers.hasElement [⟨"Transfer-Encoding", "unchunked"⟩] "Transfer-Encoding"
        "chunked" = false := by decide +kernel
    exact absurd (hnot.symm.trans huses) (by decide)
  · have htwo : Spells 10 1 "2".toList := h.length (by decide +kernel) "2" (by decide +kernel)
    exact absurd (htwo.eq (.digit (by decide))) (by decide : 1 ≠ 2)
  · have hplus : Spells 10 1 "+1".toList := h.length (by decide +kernel) "+1" (by decide +kernel)
    exact hplus.not_mem (by decide) (by decide : '+' ∈ "+1".toList)

end ResponseReader

end WebClient.Http
