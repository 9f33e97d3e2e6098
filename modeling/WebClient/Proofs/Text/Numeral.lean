import WebClient.Text.Blank
import WebClient.Text.Numeral

/-!
# Spelling a number

One number has many numerals: letters may have either case, and any zeros may stand in front.
`Spells` is what they have in common, one digit after the other. Each of them reads back as the
number (`numeral?_of_spells`), and the numeral that is written is one of them
(`spells_toDigits`).
-/

namespace WebClient.Text

/-- The characters are digits of the base that spell a number, most significant first. -/
inductive Spells (base : Nat) : (n : Nat) → List Char → Prop
  | digit {c : Char} {d : Nat} (hc : digitValue? base c = some d) : Spells base d [c]
  | snoc {n d : Nat} {cs : List Char} {c : Char} (h : Spells base n cs)
      (hc : digitValue? base c = some d) : Spells base (n * base + d) (cs ++ [c])

/-! ### Digits -/

theorem digitValue?_range {base d : Nat} {c : Char} (h : digitValue? base c = some d) :
    48 ≤ c.toNat ∧ c.toNat ≤ 57 ∨ 65 ≤ c.toNat ∧ c.toNat ≤ 70 ∨ 97 ≤ c.toNat ∧ c.toNat ≤ 102 := by
  simp only [digitValue?, Char.le_def, UInt32.le_iff_toNat_le] at h
  split at h
  · exact .inl ‹_›
  · split at h
    · exact .inr (.inr ‹_›)
    · split at h
      · exact .inr (.inl ‹_›)
      · simp at h

theorem digitValue?_lt {base d : Nat} {c : Char} (h : digitValue? base c = some d) : d < base := by
  simpa using (Option.filter_eq_some_iff.1 h).2

theorem isBlank_of_digitValue? {base d : Nat} {c : Char} (h : digitValue? base c = some d) :
    isBlank c = false := by
  have hrange := digitValue?_range h
  have hval : c.val.toNat = c.toNat := rfl
  simp only [isBlank, Bool.or_eq_false_iff, Bool.and_eq_false_iff, decide_eq_false_iff_not,
    beq_eq_false_iff_ne, ne_eq, UInt32.le_iff_toNat_le, ← UInt32.toNat_inj, UInt32.reduceToNat,
    hval]
  omega

/-! ### Reading -/

namespace Spells

variable {base n : Nat} {cs : List Char}

theorem ne_nil (h : Spells base n cs) : cs ≠ [] := by
  cases h <;> simp

theorem exists_digitValue? (h : Spells base n cs) :
    ∀ c ∈ cs, ∃ d, digitValue? base c = some d := by
  induction h with
  | @digit c d hc => simpa using ⟨d, hc⟩
  | @snoc n d cs c h hc ih =>
    intro c' hc'
    rcases List.mem_append.1 hc' with hmem | hmem
    · exact ih c' hmem
    · exact ⟨d, List.mem_singleton.1 hmem ▸ hc⟩

theorem not_mem {c : Char} (h : Spells base n cs) (hc : digitValue? base c = none) : c ∉ cs := by
  intro hmem
  obtain ⟨d, hd⟩ := h.exists_digitValue? c hmem
  simp [hc] at hd

theorem toNat_lt (h : Spells base n cs) : ∀ c ∈ cs, c.toNat < 0x80 := by
  intro c hmem
  obtain ⟨d, hd⟩ := h.exists_digitValue? c hmem
  have := digitValue?_range hd
  omega

theorem trimChars_eq (h : Spells base n cs) : trimChars cs = cs := by
  have hblank : ∀ c ∈ cs, isBlank c = false := fun c hmem =>
    let ⟨_, hd⟩ := h.exists_digitValue? c hmem
    isBlank_of_digitValue? hd
  exact trimChars_eq_self (fun c hc => hblank c (List.mem_of_head? hc))
    fun c hc => hblank c (List.mem_of_getLast? hc)

end Spells

theorem digitsFrom?_append (base largest value : Nat) (cs more : List Char) :
    digitsFrom? base largest value (cs ++ more) =
      (digitsFrom? base largest value cs).bind fun next => digitsFrom? base largest next more := by
  induction cs generalizing value with
  | nil => rfl
  | cons c cs ih =>
    simp only [List.cons_append, digitsFrom?]
    cases digitValue? base c with
    | none => rfl
    | some d =>
      dsimp only
      split
      · exact ih _
      · rfl

theorem digitsFrom?_of_spells {base largest n : Nat} {cs : List Char} (h : Spells base n cs)
    (hle : n ≤ largest) : digitsFrom? base largest 0 cs = some n := by
  induction h with
  | @digit c d hc => simp [digitsFrom?, hc, hle]
  | @snoc n d cs c h hc ih =>
    have hpos : 0 < base := Nat.zero_lt_of_lt (digitValue?_lt hc)
    have hn : n ≤ n * base := Nat.le_mul_of_pos_right n hpos
    rw [digitsFrom?_append, ih (by omega)]
    simp [digitsFrom?, hc, hle]

/-- **However a number is spelled, it reads back.** -/
theorem numeral?_of_spells {base largest n : Nat} {cs : List Char} (h : Spells base n cs)
    (hle : n ≤ largest) : numeral? base largest cs = some n := by
  have hread := digitsFrom?_of_spells h hle
  have hsign : '+' ∉ cs := h.not_mem (by simp [digitValue?])
  cases cs with
  | nil => exact absurd rfl h.ne_nil
  | cons c cs =>
    unfold numeral?
    split
    · next heq => simp [(List.cons.inj heq).1] at hsign
    · exact hread

/-- Digits that are read behind others spell the number with them. -/
theorem Spells.append {base largest m n : Nat} {front cs : List Char} (h : Spells base m front)
    (hread : digitsFrom? base largest m cs = some n) : Spells base n (front ++ cs) := by
  induction cs generalizing m front with
  | nil =>
    obtain rfl := Option.some.inj hread
    rwa [List.append_nil]
  | cons c cs ih =>
    simp only [digitsFrom?] at hread
    split at hread
    · next d hc =>
      split at hread
      · rw [List.append_cons]
        exact ih (h.snoc hc) hread
      · cases hread
    · cases hread

theorem spells_of_digitsFrom? {base largest n : Nat} {c : Char} {cs : List Char}
    (h : digitsFrom? base largest 0 (c :: cs) = some n) : Spells base n (c :: cs) := by
  simp only [digitsFrom?, Nat.zero_mul, Nat.zero_add] at h
  split at h
  · next d hc =>
    split at h
    · exact (Spells.digit hc).append h
    · cases h
  · cases h

/-- **What is read as a number:** its digits, with or without a plus sign in front. -/
theorem numeral?_eq_some_iff {base largest n : Nat} {cs : List Char} :
    numeral? base largest cs = some n ↔
      n ≤ largest ∧ (Spells base n cs ∨ ∃ digits, cs = '+' :: digits ∧ Spells base n digits) := by
  constructor
  · intro h
    refine ⟨numeral?_le h, ?_⟩
    unfold numeral? at h
    split at h
    · next digits =>
      cases digits with
      | nil => nomatch h
      | cons c digits => exact .inr ⟨c :: digits, rfl, spells_of_digitsFrom? h⟩
    · cases cs with
      | nil => nomatch h
      | cons c digits => exact .inl (spells_of_digitsFrom? h)
  · rintro ⟨hle, hdigits | ⟨digits, rfl, hdigits⟩⟩
    · exact numeral?_of_spells hdigits hle
    · cases digits with
      | nil => exact absurd rfl hdigits.ne_nil
      | cons c digits => exact digitsFrom?_of_spells hdigits hle

theorem Spells.eq {base m n : Nat} {cs : List Char} (hm : Spells base m cs)
    (hn : Spells base n cs) : m = n := by
  have hread := digitsFrom?_of_spells hm (Nat.le_max_left m n)
  rw [digitsFrom?_of_spells hn (Nat.le_max_right m n)] at hread
  exact (Option.some.inj hread).symm

/-! ### Writing -/

theorem digitValue?_digitChar {base d : Nat} (hbase : base ≤ 16) (h : d < base) :
    digitValue? base d.digitChar = some d := by
  have hall : ∀ d : Fin 16, digitValue? 16 (Nat.digitChar d) = some d.val := by decide
  have hsixteen := hall ⟨d, by omega⟩
  unfold digitValue? at hsixteen ⊢
  rw [Option.filter_eq_some_iff] at hsixteen ⊢
  exact ⟨hsixteen.1, by simpa using h⟩

theorem spells_toDigits {base : Nat} (hone : 1 < base) (hbase : base ≤ 16) (n : Nat) :
    Spells base n (Nat.toDigits base n) := by
  induction n using Nat.strongRecOn with
  | ind n ih =>
    rw [Nat.toDigits_eq_if hone]
    split
    · next hlt => exact .digit (digitValue?_digitChar hbase hlt)
    · next hge =>
      have hdigit := digitValue?_digitChar hbase (Nat.mod_lt n (Nat.zero_lt_of_lt hone))
      have hlt : n / base < n := Nat.div_lt_self (by omega) hone
      have hn : n / base * base + n % base = n := Nat.div_add_mod' n base
      simpa only [hn] using (ih _ hlt).snoc hdigit

theorem spells_decimal (n : Nat) : Spells 10 n (decimal n) :=
  spells_toDigits (by decide) (by decide) n

theorem spells_hexadecimal (n : Nat) : Spells 16 n (hexadecimal n) :=
  spells_toDigits (by decide) (by decide) n

end WebClient.Text
