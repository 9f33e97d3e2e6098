import WebClient.Proofs.Http.Response.Limits

/-!
# What a response was read from

A call takes a reader through a row of places, and a session is any row of calls: bytes are put
behind the buffer, responses are asked for, the connection ends, and reading goes on after errors. A
session keeps the places that the reader has come through since it last gave a response back, and
with them the lines that it took for the head.

`Follows` is the account that the places give of a reader at any time. It comes to its end with a
response: `ReadFrom` says that the response is what the lines of its head say, and how many bytes
they have on the wire.
-/

namespace WebClient.Http.ResponseReader

/-! ### Places and lines -/

structure Place where
  reader : ResponseReader
  buffer : Bytes

/-- The places that a call goes through, one for each of its steps. -/
def path (r : ResponseReader) (buffer : Bytes) : List Place :=
  { reader := r, buffer } :: match _h : r.step buffer with
    | .again r' rest => path r' rest
    | .answer _ _ _ => []
termination_by r.work buffer
decreasing_by exact work_lt_of_step _h

/-- The lines of the head that were taken in a phase, in their order. -/
def linesIn (phase : Phase) (places : List Place) : List Bytes :=
  places.flatMap fun place =>
    if place.reader.phase = phase then (place.reader.headLine? place.buffer).toList else []

def fieldsIn (phase : Phase) (places : List Place) : Headers :=
  (linesIn phase places).filterMap fieldOf?

/-- The head with the trailers, as it stood on the wire: the status line, which is the last line
that was taken for one, and all lines behind it. -/
def headText (places : List Place) : Bytes :=
  ((linesIn .statusLine places).getLast?.toList ++ linesIn .headers places ++
    linesIn .trailers places).flatMap fun line => line ++ Bytes.crlf

def StatusOn (line : Bytes) (status : Nat) (reason : Option String) : Prop :=
  ∃ text, Utf8.decode? line = some text ∧ readStatusLine text = .ok (status, reason)

variable {r r' : ResponseReader} {buffer : Bytes} {places : List Place}

theorem path_of_again {rest : Bytes} (h : r.step buffer = .again r' rest) :
    path r buffer = ⟨r, buffer⟩ :: path r' rest := by
  rw [path, h]

theorem path_of_answer {result : Except ReadError (Option Response)} {rest : Bytes}
    (h : r.step buffer = .answer result r' rest) : path r buffer = [⟨r, buffer⟩] := by
  rw [path, h]

@[simp] theorem linesIn_append (phase : Phase) (places more : List Place) :
    linesIn phase (places ++ more) = linesIn phase places ++ linesIn phase more :=
  List.flatMap_append

theorem linesIn_of_phase {phase : Phase} (h : r.phase = phase) (buffer : Bytes) :
    linesIn phase [⟨r, buffer⟩] = (r.headLine? buffer).toList := by
  simp [linesIn, h]

theorem linesIn_of_phase_ne {phase : Phase} (h : r.phase ≠ phase) (buffer : Bytes) :
    linesIn phase [⟨r, buffer⟩] = [] := by
  simp [linesIn, h]

theorem linesIn_of_none (phase : Phase) (h : r.headLine? buffer = none) :
    linesIn phase [⟨r, buffer⟩] = [] := by
  simp [linesIn, h]

theorem length_headText_of_line {line : Bytes} (hphase : r.phase = .headers ∨ r.phase = .trailers)
    (hline : r.headLine? buffer = some line) :
    (headText (places ++ [⟨r, buffer⟩])).length = (headText places).length + (line.length + 2) := by
  rcases hphase with hp | hp
  all_goals
    simp [headText, linesIn_of_phase, linesIn_of_phase_ne, hp, hline, Bytes.crlf]
    omega

/-! ### Sessions -/

inductive Call where
  | append (bytes : Bytes)
  | decode
  | decodeEnd

/-- A reader with its buffer, and the places that it has come through since it last gave a response
back. -/
structure Session where
  reader : ResponseReader := {}
  buffer : Bytes := []
  places : List Place := []

namespace Session

/-- What a call comes to; bytes are only put behind the buffer. -/
def answer? (s : Session) : Call → Option Answer
  | .append _ => none
  | .decode => some (s.reader.decode s.buffer)
  | .decodeEnd => some (s.reader.decodeEnd s.buffer)

/-- The places that a response is read from, if the next call gives one back. -/
def ahead (s : Session) : List Place :=
  s.places ++ path s.reader s.buffer

def behind (s : Session) (answer : Answer) : Session where
  reader := answer.reader
  buffer := answer.rest
  places := match answer.result with
    | .ok (some _) => []
    | _ => s.ahead

def call (s : Session) : Call → Session
  | .append bytes => { s with buffer := s.buffer ++ bytes }
  | .decode => s.behind (s.reader.decode s.buffer)
  | .decodeEnd => s.behind (s.reader.decodeEnd s.buffer)

def ofCalls (calls : List Call) : Session :=
  calls.foldl call {}

end Session

/-! ### Accounts -/

/-- What is so of the reader that a step leaves, or else of the response that it gives back. -/
def Step.Leaves (inv : ResponseReader → Prop) (out : Response → Prop) : Step → Prop
  | .again r _ | .answer (.ok none) r _ | .answer (.error _) r _ => inv r
  | .answer (.ok (some response)) _ _ => out response

/-- What is so of the reader that a call leaves, or else of the response that it gives back. -/
def Answer.Leaves (inv : ResponseReader → Prop) (out : Response → Prop) (answer : Answer) : Prop :=
  (Step.answer answer.result answer.reader answer.rest).Leaves inv out

theorem Step.Leaves.and {inv inv' : ResponseReader → Prop} {out out' : Response → Prop}
    {step : Step} (h : step.Leaves inv out) (h' : step.Leaves inv' out') :
    step.Leaves (fun r => inv r ∧ inv' r) fun response => out response ∧ out' response := by
  rcases step with _ | ⟨e | _ | response, _, _⟩ <;> exact ⟨h, h'⟩

theorem WithinLimits.leaves (h : r.WithinLimits) (buffer : Bytes) :
    (r.step buffer).Leaves WithinLimits fun response => response.body.length ≤ maxBodyBytes := by
  have hmoves := moves_step h buffer
  have hkept := h.step buffer
  generalize r.step buffer = step at hmoves hkept
  rcases step with _ | ⟨e | _ | response, r', rest⟩
  · exact hkept
  · exact hkept
  · exact hkept
  · exact hmoves.length_body_le h

/-- Something that the places behind a reader say of it (`inv`) from the start of a response on, and
of the response at its end (`out`). -/
structure IsAccount (inv : List Place → ResponseReader → Prop)
    (out : List Place → Response → Prop) : Prop where
  new : inv [] {}
  step : ∀ {places r}, inv places r → ∀ buffer,
    (r.step buffer).Leaves (inv (places ++ [⟨r, buffer⟩])) (out (places ++ [⟨r, buffer⟩]))
  atEnd : ∀ {places r}, inv places r → r.phase = .untilClose → out places r.response

theorem reader_of_decode {response : Response}
    (h : (r.decode buffer).result = .ok (some response)) : (r.decode buffer).reader = {} :=
  (length_lt_of_decode r buffer h).1

theorem reader_of_decodeEnd {response : Response}
    (h : (r.decodeEnd buffer).result = .ok (some response)) : (r.decodeEnd buffer).reader = {} := by
  unfold decodeEnd at h ⊢
  dsimp only at h ⊢
  split at h
  · split at h
    · next hphase => rw [if_pos hphase]
    · split at h
      · next hnone _ _ => nomatch hnone.symm.trans h
      · nomatch h
  · exact reader_of_decode h

namespace IsAccount

variable {inv : List Place → ResponseReader → Prop} {out : List Place → Response → Prop}

theorem decode (hinv : IsAccount inv out) (h : inv places r) (buffer : Bytes) :
    (r.decode buffer).Leaves (inv (places ++ path r buffer)) (out (places ++ path r buffer)) := by
  fun_induction ResponseReader.decode r buffer generalizing places with
  | case1 r buffer result r' rest hs =>
    have hstep := hinv.step h buffer
    rw [path_of_answer hs]
    rwa [hs] at hstep
  | case2 r buffer r' rest hs ih =>
    have hstep := hinv.step h buffer
    rw [hs] at hstep
    rw [path_of_again hs, List.append_cons]
    exact ih hstep

theorem decodeEnd (hinv : IsAccount inv out) (h : inv places r) (buffer : Bytes) :
    (r.decodeEnd buffer).Leaves (inv (places ++ path r buffer))
      (out (places ++ path r buffer)) := by
  have hdecode := hinv.decode h buffer
  generalize hanswer : r.decode buffer = answer at hdecode
  obtain ⟨result, r', rest⟩ := answer
  unfold ResponseReader.decodeEnd
  simp only [hanswer]
  rcases result with e | _ | response
  · exact hdecode
  · dsimp only
    split
    · next hphase => exact hinv.atEnd hdecode hphase
    · split <;> exact hdecode
  · exact hdecode

/-- Each place that a call goes through has an account. -/
theorem exists_of_mem_path (hinv : IsAccount inv out) (h : inv places r) {buffer : Bytes}
    {place : Place} (hplace : place ∈ path r buffer) : ∃ before, inv before place.reader := by
  fun_induction ResponseReader.decode r buffer generalizing places with
  | case1 r buffer result r' rest hs =>
    rw [path_of_answer hs, List.mem_singleton] at hplace
    exact ⟨places, hplace ▸ h⟩
  | case2 r buffer r' rest hs ih =>
    rw [path_of_again hs, List.mem_cons] at hplace
    rcases hplace with rfl | hplace
    · exact ⟨places, h⟩
    · have hstep := hinv.step h buffer
      rw [hs] at hstep
      exact ih hstep hplace

theorem answer? (hinv : IsAccount inv out) {s : Session} (h : inv s.places s.reader) {call : Call}
    {answer : Answer} (hanswer : s.answer? call = some answer) :
    answer.Leaves (inv s.ahead) (out s.ahead) := by
  cases call with
  | append => nomatch hanswer
  | decode => exact Option.some.inj hanswer ▸ hinv.decode h s.buffer
  | decodeEnd => exact Option.some.inj hanswer ▸ hinv.decodeEnd h s.buffer

theorem behind (hinv : IsAccount inv out) {s : Session} {answer : Answer}
    (hleaves : answer.Leaves (inv s.ahead) (out s.ahead))
    (hnew : ∀ response, answer.result = .ok (some response) → answer.reader = {}) :
    inv (s.behind answer).places (s.behind answer).reader := by
  obtain ⟨result, r', rest⟩ := answer
  rcases result with e | _ | response
  · exact hleaves
  · exact hleaves
  · obtain rfl : r' = {} := hnew response rfl
    exact hinv.new

theorem call (hinv : IsAccount inv out) {s : Session} (h : inv s.places s.reader) (call : Call) :
    inv (s.call call).places (s.call call).reader := by
  cases call with
  | append bytes => exact h
  | decode =>
    exact hinv.behind (hinv.decode h s.buffer) fun response => reader_of_decode
  | decodeEnd =>
    exact hinv.behind (hinv.decodeEnd h s.buffer) fun response => reader_of_decodeEnd

/-- **An account holds throughout a session.** -/
theorem ofCalls (hinv : IsAccount inv out) (calls : List Call) :
    inv (Session.ofCalls calls).places (Session.ofCalls calls).reader := by
  suffices ∀ s : Session, inv s.places s.reader →
      inv (calls.foldl Session.call s).places (calls.foldl Session.call s).reader from
    this {} hinv.new
  induction calls with
  | nil => exact fun s h => h
  | cons call calls ih => exact fun s h => ih _ (hinv.call h call)

end IsAccount

/-! ### The account of the head -/

/-- What the places since the last response say of the head of the next. -/
structure Follows (places : List Place) (r : ResponseReader) : Prop where
  begins : r.phase = .statusLine → linesIn .headers places = [] ∧ r.headers = []
  no_trailers : r.phase ≠ .trailers → linesIn .trailers places = []
  status_on : r.phase ≠ .statusLine →
    ∃ line ∈ (linesIn .statusLine places).getLast?, StatusOn line r.status r.reason
  length_le : r.phase ≠ .statusLine → (headText places).length ≤ r.headBytes
  /-- A line past the limit of the head adds no field. -/
  headers_eq : r.headBytes ≤ maxHeadBytes →
    r.headers = fieldsIn .headers places ++ fieldsIn .trailers places

/-- What a response was read from. -/
structure ReadFrom (places : List Place) (response : Response) : Prop where
  status_on : ∃ line ∈ (linesIn .statusLine places).getLast?,
    StatusOn line response.status response.reason
  headers_eq : response.headers = fieldsIn .headers places ++ fieldsIn .trailers places
  length_le : (headText places).length ≤ maxHeadBytes

namespace Follows

theorem atStatusLine (hphase : r.phase = .statusLine) (hheaders : linesIn .headers places = [])
    (htrailers : linesIn .trailers places = []) (hnone : r.headers = []) : Follows places r where
  begins := fun _ => ⟨hheaders, hnone⟩
  no_trailers := fun _ => htrailers
  status_on := fun hother => absurd hphase hother
  length_le := fun hother => absurd hphase hother
  headers_eq := fun _ => by simp [fieldsIn, hheaders, htrailers, hnone]

theorem past_none (h : Follows places r) (hline : r.headLine? buffer = none)
    (hphase : r'.phase = r.phase ∨
      r'.phase ≠ .statusLine ∧ r.phase ≠ .statusLine ∧ r.phase ≠ .trailers)
    (hstatus : r'.status = r.status) (hreason : r'.reason = r.reason)
    (hheaders : r'.headers = r.headers) (hbytes : r'.headBytes = r.headBytes) :
    Follows (places ++ [⟨r, buffer⟩]) r' := by
  have hlines (phase : Phase) : linesIn phase (places ++ [⟨r, buffer⟩]) = linesIn phase places := by
    rw [linesIn_append, linesIn_of_none phase hline, List.append_nil]
  have hbegun (hother : r'.phase ≠ .statusLine) : r.phase ≠ .statusLine := by
    rcases hphase with hphase | hphase
    · rwa [← hphase]
    · exact hphase.2.1
  constructor
  · intro hstart
    rcases hphase with hphase | hphase
    · rw [hlines, hheaders]
      exact h.begins (hphase.symm.trans hstart)
    · exact absurd hstart hphase.1
  · intro hother
    rw [hlines]
    rcases hphase with hphase | hphase
    · exact h.no_trailers (hphase ▸ hother)
    · exact h.no_trailers hphase.2.2
  · intro hother
    rw [hlines, hstatus, hreason]
    exact h.status_on (hbegun hother)
  · intro hother
    rw [headText, hlines, hlines, hlines, hbytes]
    exact h.length_le (hbegun hother)
  · rw [fieldsIn, fieldsIn, hlines, hlines, hbytes, hheaders]
    exact h.headers_eq

theorem past_line (h : Follows places r) {line : Bytes} (hline : r.headLine? buffer = some line)
    (hphase : r.phase = .headers ∨ r.phase = .trailers)
    (hnext : r'.phase = r.phase ∨ r'.phase ≠ .statusLine ∧ r.phase ≠ .trailers)
    (hstatus : r'.status = r.status) (hreason : r'.reason = r.reason)
    (hheaders : r'.headBytes ≤ maxHeadBytes → r'.headers = r.headers ++ (fieldOf? line).toList)
    (hbytes : r'.headBytes = r.headBytes + (line.length + 2)) :
    Follows (places ++ [⟨r, buffer⟩]) r' := by
  have hbegun : r.phase ≠ .statusLine := by rcases hphase with hp | hp <;> simp [hp]
  have hnot : r'.phase ≠ .statusLine := by
    rcases hnext with hp | hp
    · rwa [hp]
    · exact hp.1
  have hfirst : linesIn .statusLine (places ++ [⟨r, buffer⟩]) = linesIn .statusLine places := by
    rw [linesIn_append, linesIn_of_phase_ne hbegun, List.append_nil]
  refine ⟨fun hstart => absurd hstart hnot, fun hother => ?_, fun _ => ?_, fun _ => ?_,
    fun hfit => ?_⟩
  · have hphase : r.phase ≠ .trailers := by
      rcases hnext with hp | hp
      · rwa [← hp]
      · exact hp.2
    rw [linesIn_append, linesIn_of_phase_ne hphase, h.no_trailers hphase]
    rfl
  · rw [hfirst, hstatus, hreason]
    exact h.status_on hbegun
  · rw [length_headText_of_line hphase hline, hbytes]
    exact Nat.add_le_add_right (h.length_le hbegun) _
  · have hfield : [line].filterMap fieldOf? = (fieldOf? line).toList := by
      cases hfield : fieldOf? line <;> simp [hfield]
    rw [hheaders hfit, h.headers_eq (by omega), ← hfield]
    rcases hphase with hp | hp
    · simp [fieldsIn, linesIn_of_phase, linesIn_of_phase_ne, hp, hline, h.no_trailers]
    · simp [fieldsIn, linesIn_of_phase, linesIn_of_phase_ne, hp, hline]

/-- At the end of a response, the account of its head is what it was read from. -/
theorem readFrom (h : Follows places r) (hphase : r.phase ≠ .statusLine)
    (hfit : r.headBytes ≤ maxHeadBytes) {response : Response} (hstatus : response.status = r.status)
    (hreason : response.reason = r.reason) (hheaders : response.headers = r.headers) :
    ReadFrom places response where
  status_on := by rw [hstatus, hreason]; exact h.status_on hphase
  headers_eq := by rw [hheaders]; exact h.headers_eq hfit
  length_le := Nat.le_trans (h.length_le hphase) hfit

/-- Every move goes down in the account. -/
theorem leaves (h : Follows places r) (hlimits : r.WithinLimits) {step : Step}
    (hmoves : Moves r buffer step) :
    step.Leaves (Follows (places ++ [⟨r, buffer⟩])) (ReadFrom (places ++ [⟨r, buffer⟩])) := by
  have hnone {phase : Phase} (hphase : r.phase = phase) (hcounts : phase.countsLines = false) :
      r.headLine? buffer = none ∧ r.headBytes ≤ maxHeadBytes := by
    have hcounts : r.phase.countsLines = false := by rw [hphase, hcounts]
    exact ⟨headLine?_of_not_counts hcounts buffer, hlimits.head_le hcounts⟩
  have hstart (hphase : r.phase = .statusLine) {r' : ResponseReader} (heq : r'.phase = r.phase)
      (hheaders : r'.headers = r.headers) : Follows (places ++ [⟨r, buffer⟩]) r' := by
    refine atStatusLine (heq.trans hphase) ?_ ?_ (hheaders.trans (h.begins hphase).2)
    · simp [linesIn_of_phase_ne, hphase, h.begins hphase]
    · simp [linesIn_of_phase_ne, hphase, h.no_trailers]
  cases hmoves with
  | refuses hline | waits hline => exact h.past_none hline (.inl rfl) rfl rfl rfl rfl
  | @refusesLine e line rest hline hnothing =>
    by_cases hphase : r.phase = .statusLine
    · exact hstart hphase rfl rfl
    · have hbehind : r.phase = .headers ∨ r.phase = .trailers := by
        have hcounts := counts_of_headLine? hline
        cases hp : r.phase <;> simp [hp, Phase.countsLines] at hcounts hphase ⊢
      refine h.past_line hline hbehind (.inl rfl) rfl rfl (fun hfit => ?_) rfl
      rw [(hnothing hfit).resolve_left hphase]
      exact (List.append_nil _).symm
  | skipsLine hphase hline => exact hstart hphase rfl rfl
  | @readsStatus line rest text status reason hphase hline htext hread =>
    obtain ⟨hheaders, hfields⟩ := h.begins hphase
    have htrailers := h.no_trailers (by simp [hphase])
    refine ⟨by rintro ⟨⟩, fun _ => ?_, fun _ => ⟨line, ?_, text, htext, hread⟩, fun _ => ?_,
      fun _ => ?_⟩
    · simp [linesIn_of_phase_ne, hphase, htrailers]
    · simp [linesIn_of_phase hphase, hline]
    · simp [headText, linesIn_of_phase, linesIn_of_phase_ne, hphase, hline, hheaders, htrailers,
        Bytes.crlf, pastLine]
    · simp [fieldsIn, linesIn_of_phase_ne, hphase, hheaders, htrailers, hfields, pastLine]
  | readsField hphase hline hfield =>
    exact h.past_line hline hphase (.inl rfl) rfl rfl (fun _ => by rw [hfield]; rfl) rfl
  | opensBody hphase hline hfit hbody hopens =>
    refine h.past_line hline (.inl hphase) (.inr ⟨?_, by simp [hphase]⟩) rfl rfl (fun _ => ?_) rfl
    · cases hopens <;> rintro ⟨⟩
    · exact (List.append_nil _).symm
  | endsHead hphase hline hfit =>
    have hpast : Follows (places ++ [⟨r, buffer⟩]) (r.pastLine []) :=
      h.past_line hline (.inl hphase) (.inl rfl) rfl rfl (fun _ => (List.append_nil _).symm) rfl
    exact hpast.readFrom (by simp [pastLine, hphase]) hfit rfl rfl rfl
  | endsTrailers hphase hline hfit =>
    have hpast : Follows (places ++ [⟨r, buffer⟩]) (r.pastLine []) :=
      h.past_line hline (.inr hphase) (.inl rfl) rfl rfl (fun _ => (List.append_nil _).symm) rfl
    exact hpast.readFrom (by simp [pastLine, hphase]) hfit rfl rfl rfl
  | gathers hphase | gathersRest hphase =>
    exact h.past_none (hnone hphase rfl).1 (.inl rfl) rfl rfl rfl rfl
  | @completes length taken rest hphase =>
    obtain ⟨hline, hfit⟩ := hnone hphase rfl
    have hpast : Follows (places ++ [⟨r, buffer⟩]) (r.addBody taken) :=
      h.past_none hline (.inl rfl) rfl rfl rfl rfl
    exact hpast.readFrom (by simp [hphase]) hfit rfl rfl rfl
  | @readsSize size rest hphase =>
    refine h.past_none (hnone hphase rfl).1 (.inr ⟨?_, by simp [hphase], by simp [hphase]⟩)
      rfl rfl rfl rfl
    dsimp only
    split <;> rintro ⟨⟩
  | gathersChunk hphase | completesChunk hphase | leavesChunk hphase =>
    exact h.past_none (hnone hphase rfl).1
      (.inr ⟨by rintro ⟨⟩, by simp [hphase], by simp [hphase]⟩) rfl rfl rfl rfl

end Follows

theorem isAccount_follows :
    IsAccount (fun places r => r.WithinLimits ∧ Follows places r)
      (fun places response => response.body.length ≤ maxBodyBytes ∧ ReadFrom places response) where
  new := ⟨withinLimits_new, .atStatusLine rfl rfl rfl rfl⟩
  step := by
    rintro places r ⟨hlimits, hfollows⟩ buffer
    exact (hlimits.leaves buffer).and (hfollows.leaves hlimits (moves_step hlimits buffer))
  atEnd := by
    rintro places r ⟨hlimits, hfollows⟩ hphase
    refine ⟨by rw [length_body_response]; exact hlimits.body_le, ?_⟩
    exact hfollows.readFrom (by simp [hphase]) (hlimits.head_le (by rw [hphase]; rfl)) rfl rfl rfl

/-- A call that gives nothing back leaves no more unread than a head may have. -/
theorem WithinLimits.length_rest_le (h : r.WithinLimits)
    (hnone : (r.decode buffer).result = .ok none) :
    (r.decode buffer).rest.length ≤ maxHeadBytes := by
  fun_induction ResponseReader.decode r buffer with
  | case1 r buffer result r' rest hs =>
    obtain rfl : result = .ok none := hnone
    have hmoves := moves_step h buffer
    rw [hs] at hmoves
    exact hmoves.length_le
  | case2 r buffer r' rest hs ih =>
    have hkept := h.step buffer
    rw [hs] at hkept
    exact ih hkept hnone

theorem eq_decode_of_none (hnone : (r.decodeEnd buffer).result = .ok none) :
    r.decodeEnd buffer = r.decode buffer := by
  unfold decodeEnd at hnone ⊢
  dsimp only at hnone ⊢
  split at hnone
  · split at hnone
    · nomatch hnone
    · next hphase =>
      split at hnone
      · next hidle => rw [if_neg hphase, if_pos hidle]
      · nomatch hnone
  · rfl

/-- **Nothing grows past its limits.** Whatever a reader has been given and asked for, and whatever
errors it has found, it is within its limits, also at each place that the next call goes through.
A response that is given back has a body of at most 16 MiB and is what a head of at most 64 KiB
says, the trailers included; and when nothing is given back, at most 64 KiB stay unread. -/
theorem Session.limits_of_calls (calls : List Call) :
    let s := Session.ofCalls calls
    s.reader.WithinLimits ∧ (∀ place ∈ path s.reader s.buffer, place.reader.WithinLimits) ∧
      ∀ call answer, s.answer? call = some answer →
        (answer.result = .ok none → answer.rest.length ≤ maxHeadBytes) ∧
        ∀ response, answer.result = .ok (some response) →
          response.body.length ≤ maxBodyBytes ∧ ReadFrom s.ahead response := by
  intro s
  have hfollows := isAccount_follows.ofCalls calls
  refine ⟨hfollows.1, fun place hplace => ?_, fun call answer hanswer => ⟨fun hnone => ?_, ?_⟩⟩
  · obtain ⟨before, hlimits, -⟩ := isAccount_follows.exists_of_mem_path hfollows hplace
    exact hlimits
  · cases call with
    | append => nomatch hanswer
    | decode =>
      obtain rfl := Option.some.inj hanswer
      exact hfollows.1.length_rest_le hnone
    | decodeEnd =>
      obtain rfl := Option.some.inj hanswer
      have hdecode := eq_decode_of_none hnone
      rw [hdecode] at hnone ⊢
      exact hfollows.1.length_rest_le hnone
  · intro response hresponse
    have hleaves := isAccount_follows.answer? hfollows hanswer
    rwa [Answer.Leaves, hresponse] at hleaves

end WebClient.Http.ResponseReader
