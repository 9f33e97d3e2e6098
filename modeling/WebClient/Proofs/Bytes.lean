import Mathlib.Algebra.Group.Nat.Defs
import Mathlib.Data.List.Chain
import WebClient.Bytes

/-!
# Cutting and writing bytes

What is taken off the front of a buffer does not depend on the bytes behind it: a count of bytes
that is there stays there, and so does the first line. A line that is not there yet ends, if it
ends at all, in the bytes still to come. Numbers written with the most significant byte first read
back.
-/

namespace WebClient.Bytes

theorem take?_append {count : Nat} {bs first rest : Bytes} (more : Bytes)
    (h : take? count bs = some (first, rest)) :
    take? count (bs ++ more) = some (first, rest ++ more) := by
  obtain ⟨rfl, rfl⟩ := take?_eq_some h
  simp [take?]

@[simp] theorem take?_length_append (first rest : Bytes) :
    take? first.length (first ++ rest) = some (first, rest) := by
  simp [take?]

theorem take?_eq_none_iff {count : Nat} {bs : Bytes} :
    bs.take? count = none ↔ bs.length < count := by
  simp only [take?, List.splitAt_eq, List.length_take]
  split <;> simp <;> omega

/-! ### Lines -/

theorem splitLineFrom?_append {seen bs line after : Bytes} (more : Bytes)
    (h : splitLineFrom? seen bs = some (line, after)) :
    splitLineFrom? seen (bs ++ more) = some (line, after ++ more) := by
  fun_induction splitLineFrom? seen bs with
  | case1 => simp at h
  | case2 seen after' =>
    obtain ⟨rfl, rfl⟩ := by simpa using h
    rfl
  | case3 seen b rest hno ih =>
    have hmore : splitLineFrom? (b :: seen) (rest ++ more) = some (line, after ++ more) := ih h
    cases rest with
    | nil => simp [splitLineFrom?] at h
    | cons c rest =>
      rw [List.cons_append, List.cons_append, splitLineFrom?]
      · exact hmore
      · intro after' hb hc
        obtain ⟨rfl, -⟩ := List.cons.inj hc
        exact hno rest hb rfl

theorem splitLine?_append {bs line after : Bytes} (more : Bytes)
    (h : splitLine? bs = some (line, after)) :
    splitLine? (bs ++ more) = some (line, after ++ more) :=
  splitLineFrom?_append more h

theorem splitLineFrom?_isSome_of_crlf (seen line after : Bytes) :
    (splitLineFrom? seen (line ++ crlf ++ after)).isSome := by
  induction line generalizing seen with
  | nil => simp [splitLineFrom?, crlf]
  | cons b line ih =>
    rw [List.cons_append, List.cons_append, splitLineFrom?.eq_def]
    dsimp only
    split
    · rfl
    · exact ih _

/-- The bytes hold no end of a line: no carriage return stands in front of a line feed. -/
def IsLine (bs : Bytes) : Prop :=
  bs.IsChain fun b c => ¬ (b = 13 ∧ c = 10)

theorem isLine_of_not_mem {bs : Bytes} (h : 13 ∉ bs) : IsLine bs := by
  induction bs with
  | nil => exact .nil
  | cons b bs ih =>
    obtain ⟨hb, hbs⟩ : ¬ 13 = b ∧ 13 ∉ bs := by simpa only [List.mem_cons, not_or] using h
    exact List.isChain_cons.2 ⟨fun _ _ hend => hb hend.1.symm, ih hbs⟩

/-- Where no end of a line straddles the seam, two lines make one. -/
theorem IsLine.append {bs more : Bytes} (hbs : IsLine bs) (hmore : IsLine more)
    (hseam : 13 ∉ bs.getLast? ∨ 10 ∉ more.head?) : IsLine (bs ++ more) := by
  refine List.isChain_append.2 ⟨hbs, hmore, ?_⟩
  rintro b hb c hc ⟨rfl, rfl⟩
  exact hseam.elim (· hb) (· hc)

theorem IsLine.append_of_not_mem {bs more : Bytes} (h : 13 ∉ bs) (hmore : IsLine more) :
    IsLine (bs ++ more) :=
  (isLine_of_not_mem h).append hmore (.inl fun hlast => h (List.mem_of_getLast? hlast))

theorem splitLineFrom?_of_isLine {line : Bytes} (h : IsLine line) (seen after : Bytes) :
    splitLineFrom? seen (line ++ crlf ++ after) = some (seen.reverse ++ line, after) := by
  induction line generalizing seen with
  | nil => simp [splitLineFrom?, crlf]
  | cons b line ih =>
    obtain ⟨hb, hline⟩ := List.isChain_cons.1 h
    rw [List.cons_append, List.cons_append, splitLineFrom?, ih hline]
    · simp
    · -- The line feed behind a carriage return would be the line's own, or the carriage return
      -- that ends it.
      rintro after' rfl hrest
      cases line with
      | nil => simp [crlf] at hrest
      | cons c line =>
        obtain ⟨rfl, -⟩ := List.cons.inj hrest
        exact hb 10 rfl ⟨rfl, rfl⟩

theorem splitLine?_of_isLine {line : Bytes} (h : IsLine line) (after : Bytes) :
    splitLine? (line ++ crlf ++ after) = some (line, after) :=
  splitLineFrom?_of_isLine h [] after

theorem splitLine?_of_not_mem {line : Bytes} (h : 13 ∉ line) (after : Bytes) :
    splitLine? (line ++ crlf ++ after) = some (line, after) :=
  splitLine?_of_isLine (isLine_of_not_mem h) after

theorem isLine_of_splitLineFrom? {seen bs line after : Bytes}
    (h : splitLineFrom? seen bs = some (line, after)) :
    ∃ mid, line = seen.reverse ++ mid ∧ bs = mid ++ crlf ++ after ∧ IsLine mid := by
  fun_induction splitLineFrom? seen bs with
  | case1 => nomatch h
  | case2 seen after' =>
    obtain ⟨rfl, rfl⟩ := by simpa using h
    exact ⟨[], by simp, rfl, .nil⟩
  | case3 seen b rest hno ih =>
    obtain ⟨mid, rfl, rfl, hmid⟩ := ih h
    refine ⟨b :: mid, by simp, rfl, List.isChain_cons.2 ⟨?_, hmid⟩⟩
    rintro c hc ⟨rfl, rfl⟩
    obtain ⟨mid, rfl⟩ := List.head?_eq_some_iff.1 hc
    exact hno (mid ++ crlf ++ after) rfl rfl

theorem isLine_of_splitLine? {bs line after : Bytes} (h : splitLine? bs = some (line, after)) :
    IsLine line := by
  obtain ⟨mid, rfl, -, hmid⟩ := isLine_of_splitLineFrom? h
  exact hmid

theorem splitLine?_eq_none_of_not_mem {bs : Bytes} (h : 13 ∉ bs) : splitLine? bs = none := by
  refine Option.eq_none_iff_forall_ne_some.2 fun ⟨line, after⟩ hline => h ?_
  rw [eq_of_splitLine? hline]
  simp [crlf]

/-- Where no line ends yet, the end of the line is at least partly among the bytes to come. -/
theorem length_lt_of_splitLine?_append {bs more line after : Bytes} (h : splitLine? bs = none)
    (hmore : splitLine? (bs ++ more) = some (line, after)) : bs.length < line.length + 2 := by
  refine Nat.lt_of_not_le fun hle => ?_
  have hwhole : bs ++ more = (line ++ crlf) ++ after := eq_of_splitLine? hmore
  have hlength : (line ++ crlf).length ≤ bs.length := by simpa [crlf] using hle
  obtain ⟨tail, rfl⟩ := List.prefix_of_prefix_length_le ⟨after, hwhole.symm⟩ ⟨more, rfl⟩ hlength
  have hsome := splitLineFrom?_isSome_of_crlf [] line tail
  rw [show splitLineFrom? [] (line ++ crlf ++ tail) = none from h] at hsome
  simp at hsome

/-! ### Numbers -/

@[simp] theorem length_ofNat (count n : Nat) : (ofNat count n).length = count := by
  simp [ofNat]

theorem ofNat_succ (count n : Nat) :
    ofNat (count + 1) n = UInt8.ofNat (n / 256 ^ count) :: ofNat count n := by
  rw [ofNat, List.range_succ, List.reverse_append, List.reverse_singleton, List.singleton_append,
    List.map_cons, Nat.shiftRight_eq_div_pow, Nat.pow_mul]
  rfl

theorem foldl_ofNat (count n start : Nat) :
    (ofNat count n).foldl (fun n b => n * 256 + b.toNat) start =
      start * 256 ^ count + n % 256 ^ count := by
  induction count generalizing start with
  | zero => simp [ofNat, Nat.mod_one]
  | succ count ih =>
    have hmod : n % 256 ^ (count + 1) = n % 256 ^ count + 256 ^ count * (n / 256 ^ count % 256) :=
      Nat.mod_pow_succ
    have hstart : start * 256 * 256 ^ count = start * 256 ^ (count + 1) := by
      rw [Nat.mul_assoc, Nat.pow_succ, Nat.mul_comm 256]
    have hbyte : n / 256 ^ count % 256 * 256 ^ count = 256 ^ count * (n / 256 ^ count % 256) :=
      Nat.mul_comm _ _
    rw [ofNat_succ, List.foldl_cons, ih, UInt8.toNat_ofNat', Nat.add_mul, hmod, hstart, hbyte]
    omega

theorem toNat_ofNat {count n : Nat} (h : n < 256 ^ count) : toNat (ofNat count n) = n := by
  rw [toNat, foldl_ofNat, Nat.zero_mul, Nat.zero_add, Nat.mod_eq_of_lt h]

theorem toNat_lt (bs : Bytes) : bs.toNat < 256 ^ bs.length := by
  suffices h : ∀ start, bs.foldl (fun n b => n * 256 + b.toNat) start <
      (start + 1) * 256 ^ bs.length by
    simpa [toNat] using h 0
  induction bs with
  | nil => simp
  | cons b bs ih =>
    intro start
    rw [List.foldl_cons, List.length_cons, Nat.pow_succ, Nat.mul_comm (256 ^ _), ← Nat.mul_assoc]
    refine Nat.lt_of_lt_of_le (ih _) (Nat.mul_le_mul_right _ ?_)
    have := b.toNat_lt
    omega

end WebClient.Bytes
