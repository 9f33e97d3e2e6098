import WebClient.Http.Response.Reader

/-!
# Final responses

A server may send interim responses before the one that answers the request. Reading goes over them:
each is complete with its head, and the reader starts afresh behind it. What makes this end is that
a reader which starts afresh uses up bytes before it gives a response back
(`length_lt_of_decode`).
-/

namespace WebClient.Http.ResponseReader

theorem withLine_answer {r r' : ResponseReader} {buffer rest' : Bytes} {response : Response}
    {next : String → ResponseReader → Bytes → Step}
    (h : r.withLine buffer next = .answer (.ok (some response)) r' rest') :
    ∃ line r₁ rest, next line r₁ rest = .answer (.ok (some response)) r' rest' ∧
      rest.length < buffer.length := by
  unfold withLine at h
  split at h
  · split at h <;> simp at h
  · next line rest hl =>
    generalize r.countLine (line.length + 2) = r₁ at h
    dsimp only at h
    split at h
    · simp at h
    · split at h
      · simp at h
      · exact ⟨_, _, _, h, Bytes.length_lt_of_splitLine? hl⟩

theorem startBody_answer {r r' : ResponseReader} {rest rest' : Bytes} {response : Response}
    (h : r.startBody rest = .answer (.ok (some response)) r' rest') : r' = {} ∧ rest' = rest := by
  unfold startBody finish at h
  repeat' split at h
  all_goals simp at h
  all_goals exact ⟨h.2.1.symm, h.2.2.symm⟩

/-- A step that gives a response back leaves a reader that starts afresh, no more bytes than there
were, and was not taken at the start of the response. -/
theorem answer_some_of_step {r r' : ResponseReader} {buffer rest : Bytes} {response : Response}
    (h : r.step buffer = .answer (.ok (some response)) r' rest) :
    r' = {} ∧ rest.length ≤ buffer.length ∧ r.phase ≠ .statusLine := by
  unfold step at h
  split at h
  · obtain ⟨line, r₁, rest₁, hn, -⟩ := withLine_answer h
    repeat' split at hn
    all_goals simp at hn
  · next hp =>
    obtain ⟨line, r₁, rest₁, hn, hlt⟩ := withLine_answer h
    split at hn
    · obtain ⟨rfl, rfl⟩ := startBody_answer hn
      exact ⟨rfl, by omega, by simp [hp]⟩
    · split at hn <;> simp at hn
  · next hp =>
    simp only [finish, List.splitAt_eq] at h
    split at h
    · simp only [Step.answer.injEq] at h
      obtain ⟨-, rfl, rfl⟩ := h
      exact ⟨rfl, by simp, by simp [hp]⟩
    · simp at h
  · split at h <;> simp at h
  · obtain ⟨line, r₁, rest₁, hn, -⟩ := withLine_answer h
    repeat' split at hn
    all_goals simp at hn
  · simp only [List.splitAt_eq] at h
    split at h <;> simp at h
  · split at h <;> simp at h
  · next hp =>
    obtain ⟨line, r₁, rest₁, hn, hlt⟩ := withLine_answer h
    simp only [finish] at hn
    split at hn
    · simp only [Step.answer.injEq] at hn
      obtain ⟨-, rfl, rfl⟩ := hn
      exact ⟨rfl, by omega, by simp [hp]⟩
    · split at hn <;> simp at hn

theorem length_le_of_step {r r' : ResponseReader} {buffer rest : Bytes}
    (h : r.step buffer = .again r' rest) :
    rest.length ≤ buffer.length ∧ (r.phase = .statusLine → rest.length < buffer.length) := by
  have less := work_lt_of_step h
  unfold work at less
  constructor
  · split at less <;> split at less <;> omega
  · intro hp
    rw [hp] at less
    dsimp only at less
    split at less <;> omega

/-- When a response has been read, the reader starts afresh and there are no more bytes than
before; a reader that started afresh has used some up. -/
theorem length_lt_of_decode (r : ResponseReader) (buffer : Bytes) {response : Response}
    (h : (r.decode buffer).result = .ok (some response)) :
    (r.decode buffer).reader = {} ∧ (r.decode buffer).rest.length ≤ buffer.length ∧
      (r.phase = .statusLine → (r.decode buffer).rest.length < buffer.length) := by
  fun_induction decode r buffer with
  | case1 r buffer result reader rest hs =>
    dsimp only at h ⊢
    subst h
    obtain ⟨rfl, hle, hp⟩ := answer_some_of_step hs
    exact ⟨rfl, hle, fun hp' => absurd hp' hp⟩
  | case2 r buffer r' rest hs ih =>
    obtain ⟨hr, hle, -⟩ := ih h
    obtain ⟨hle', hlt'⟩ := length_le_of_step hs
    exact ⟨hr, by omega, fun hp => by have := hlt' hp; omega⟩

def responsesLeft (r : ResponseReader) (buffer : Bytes) : Nat :=
  2 * buffer.length + if r.phase = .statusLine then 0 else 1

theorem responsesLeft_lt_of_decode (r : ResponseReader) (buffer : Bytes) {response : Response}
    (h : (r.decode buffer).result = .ok (some response)) :
    (r.decode buffer).reader.responsesLeft (r.decode buffer).rest < r.responsesLeft buffer := by
  obtain ⟨hr, hle, hlt⟩ := length_lt_of_decode r buffer h
  simp only [hr, responsesLeft, if_true]
  split
  · have := hlt ‹_›
    omega
  · omega

/-- Reads on until a response that is not interim is complete, more bytes are needed, or an error
is found. -/
def decodeFinal (r : ResponseReader) (buffer : Bytes) : Answer :=
  let answer := r.decode buffer
  match _h : answer.result with
  | .ok (some response) =>
    if response.isInterim then decodeFinal answer.reader answer.rest else answer
  | _ => answer
termination_by r.responsesLeft buffer
decreasing_by exact responsesLeft_lt_of_decode r buffer _h

end WebClient.Http.ResponseReader
