/-!
# Bytes

What is read from and written to a stream is a list of bytes. A text becomes bytes by UTF-8, a
line ends with a carriage return and a line feed, and numbers of a frame's header are written
with the most significant byte first.
-/

namespace WebClient

/-- A run of bytes, first byte first. -/
abbrev Bytes := List UInt8

namespace Bytes

/-- The UTF-8 form of a text. -/
def ofString (s : String) : Bytes :=
  s.toUTF8.data.toList

def crlf : Bytes := [13, 10]

/-- `splitLine?` for bytes of which `seen`, latest first, have been read. -/
def splitLineFrom? (seen : Bytes) : Bytes → Option (Bytes × Bytes)
  | [] => none
  | b :: rest =>
    match b, rest with
    | 13, 10 :: after => some (seen.reverse, after)
    | _, _ => splitLineFrom? (b :: seen) rest

/-- The bytes before and after the first end of a line. -/
def splitLine? (bs : Bytes) : Option (Bytes × Bytes) :=
  splitLineFrom? [] bs

/-- The low `count` bytes of a number, most significant first. -/
def ofNat (count n : Nat) : Bytes :=
  (List.range count).reverse.map fun i => UInt8.ofNat (n >>> (8 * i))

/-- The number whose bytes, most significant first, these are. -/
def toNat (bs : Bytes) : Nat :=
  bs.foldl (fun n b => n * 256 + b.toNat) 0

/-- The first `count` bytes and what follows them, none when there are fewer. -/
def take? (count : Nat) (bs : Bytes) : Option (Bytes × Bytes) :=
  let (first, rest) := bs.splitAt count
  if first.length < count then none else some (first, rest)

theorem splitLineFrom?_eq_some {seen bs line after : Bytes}
    (h : splitLineFrom? seen bs = some (line, after)) :
    ∃ mid, line = seen.reverse ++ mid ∧ bs = mid ++ crlf ++ after := by
  induction bs generalizing seen with
  | nil => simp [splitLineFrom?] at h
  | cons b rest ih =>
    unfold splitLineFrom? at h
    split at h
    · simp only [Option.some.injEq, Prod.mk.injEq] at h
      exact ⟨[], by simp [h.1], by simp [crlf, h.2]⟩
    · obtain ⟨mid, rfl, rfl⟩ := ih h
      exact ⟨b :: mid, by simp, by simp⟩

/-- A line and what follows it, with the end of the line between them, are the bytes that were
cut. -/
theorem eq_of_splitLine? {bs line after : Bytes} (h : splitLine? bs = some (line, after)) :
    bs = line ++ crlf ++ after := by
  obtain ⟨mid, rfl, rfl⟩ := splitLineFrom?_eq_some h
  simp

theorem length_lt_of_splitLine? {bs line after : Bytes}
    (h : splitLine? bs = some (line, after)) : after.length < bs.length := by
  simp [eq_of_splitLine? h, crlf]
  omega

theorem take?_eq_some {count : Nat} {bs first rest : Bytes}
    (h : take? count bs = some (first, rest)) : bs = first ++ rest ∧ first.length = count := by
  simp only [take?, List.splitAt_eq] at h
  split at h
  · simp at h
  · next hlen =>
    simp only [Option.some.injEq, Prod.mk.injEq] at h
    obtain ⟨rfl, rfl⟩ := h
    simp only [List.length_take] at hlen ⊢
    exact ⟨(List.take_append_drop _ _).symm, by omega⟩

end Bytes

end WebClient
