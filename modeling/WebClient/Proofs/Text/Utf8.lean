import Mathlib.Algebra.Group.Nat.Defs
import WebClient.Text.Utf8

/-!
# UTF-8 and texts

The reader of UTF-8 gives back a text exactly from the form of that text. Both directions rest on
what it is to stand inside a sequence: the bytes read so far and the range of the next one leave
some values to come to, and each of them is the value of a character whose form starts with these
bytes (`Stands`). One byte keeps this up (`step_spec`), so a reading accounts for all its bytes
(`accounts_read`). The other way round, the first byte of a character's form leaves the reader
where that character can be reached, and the bytes behind it lead there
(`readFrom_utf8EncodeChar`). So bytes are refused exactly when no text starts with them.
-/

namespace WebClient

namespace Bytes

theorem ofString_eq_flatMap (s : String) :
    ofString s = s.toList.flatMap String.utf8EncodeChar := by
  conv => lhs; rw [← String.ofList_toList (s := s)]
  rw [ofString, String.toUTF8_eq_toByteArray, String.toByteArray_ofList, List.utf8Encode]
  simp

@[simp] theorem ofString_append (s t : String) : ofString (s ++ t) = ofString s ++ ofString t := by
  simp [ofString_eq_flatMap]

theorem ofString_push (s : String) (c : Char) :
    ofString (s.push c) = ofString s ++ String.utf8EncodeChar c := by
  simp [ofString_eq_flatMap]

theorem utf8EncodeChar_of_ascii {c : Char} (h : c.toNat < 0x80) :
    String.utf8EncodeChar c = [UInt8.ofNat c.toNat] :=
  if_pos (Nat.le_of_lt_succ h)

theorem ofString_ofList_of_ascii {cs : List Char} (h : ∀ c ∈ cs, c.toNat < 0x80) :
    ofString (String.ofList cs) = cs.map fun c => UInt8.ofNat c.toNat := by
  rw [ofString_eq_flatMap, String.toList_ofList]
  induction cs with
  | nil => rfl
  | cons c cs ih =>
    rw [List.flatMap_cons, utf8EncodeChar_of_ascii (h c List.mem_cons_self),
      ih fun c hc => h c (List.mem_cons_of_mem _ hc)]
    rfl

end Bytes

namespace Utf8

/-! ### The form of a character -/

/-- The last `count` bytes of the form of a value. -/
def continuation : (count value : Nat) → Bytes
  | 0, _ => []
  | count + 1, value => UInt8.ofNat (0x80 + value / 64 ^ count % 64) :: continuation count value

/-- The byte is the first of the form of a value that takes more than one, and `owed` bytes follow
the second. -/
def Leads (b : UInt8) (owed value : Nat) : Prop :=
  owed = 0 ∧ 0x80 ≤ value ∧ value ≤ 0x7ff ∧ b.toNat = value / 64 + 0xc0 ∨
    owed = 1 ∧ 0x800 ≤ value ∧ value ≤ 0xffff ∧ b.toNat = value / 4096 + 0xe0 ∨
    owed = 2 ∧ 0x10000 ≤ value ∧ b.toNat = value / 262144 + 0xf0

theorem exists_leads {value : Nat} (hvalid : value.isValidChar) (hge : 0x80 ≤ value) :
    ∃ b owed, Leads b owed value := by
  have hbyte {n : Nat} (h : n < 256) : (UInt8.ofNat n).toNat = n := by
    rw [UInt8.toNat_ofNat', Nat.mod_eq_of_lt h]
  unfold Nat.isValidChar at hvalid
  by_cases htwo : value ≤ 0x7ff
  · exact ⟨_, 0, .inl ⟨rfl, hge, htwo, hbyte (by omega)⟩⟩
  · by_cases hthree : value ≤ 0xffff
    · exact ⟨_, 1, .inr (.inl ⟨rfl, by omega, hthree, hbyte (by omega)⟩)⟩
    · exact ⟨_, 2, .inr (.inr ⟨rfl, by omega, hbyte (by omega)⟩)⟩

theorem utf8EncodeChar_of_leads {c : Char} {b : UInt8} {owed : Nat} (h : Leads b owed c.toNat) :
    String.utf8EncodeChar c = b :: continuation (owed + 1) c.toNat := by
  have hb := b.toNat_lt
  have hvalue : c.val.toNat = c.toNat := rfl
  have hone : ¬ c.toNat ≤ 0x7f := by
    unfold Leads at h
    omega
  rw [String.utf8EncodeChar]
  simp only [hvalue, if_neg hone]
  rcases h with ⟨rfl, hge, hle, hlead⟩ | ⟨rfl, hge, hle, hlead⟩ | ⟨rfl, hge, hlead⟩
  · rw [if_pos hle]
    simp only [continuation, List.cons.injEq, ← UInt8.toNat_inj, UInt8.toNat_ofNat', Nat.reducePow,
      Nat.div_one, and_true]
    omega
  · rw [if_neg (by omega), if_pos hle]
    simp only [continuation, List.cons.injEq, ← UInt8.toNat_inj, UInt8.toNat_ofNat', Nat.reducePow,
      Nat.div_one, and_true]
    omega
  · have hvalid : c.toNat.isValidChar := c.valid
    unfold Nat.isValidChar at hvalid
    rw [if_neg (by omega), if_neg (by omega)]
    simp only [continuation, List.cons.injEq, ← UInt8.toNat_inj, UInt8.toNat_ofNat', Nat.reducePow,
      Nat.div_one, and_true]
    omega

theorem le_toNat_of_mem_continuation {count value : Nat} {b : UInt8}
    (h : b ∈ continuation count value) : 0x80 ≤ b.toNat := by
  induction count with
  | zero => nomatch h
  | succ count ih =>
    rcases List.mem_cons.1 h with rfl | hmem
    · rw [UInt8.toNat_ofNat']
      omega
    · exact ih hmem

theorem toNat_eq_of_mem_utf8EncodeChar {c : Char} {b : UInt8} (h : b ∈ String.utf8EncodeChar c)
    (hascii : b.toNat < 0x80) : c.toNat = b.toNat := by
  by_cases hc : c.toNat < 0x80
  · rw [Bytes.utf8EncodeChar_of_ascii hc] at h
    rw [List.mem_singleton.1 h, UInt8.toNat_ofNat', Nat.mod_eq_of_lt (by omega)]
  · obtain ⟨first, owed, hleads⟩ := exists_leads c.valid (Nat.le_of_not_lt hc)
    rw [utf8EncodeChar_of_leads hleads] at h
    rcases List.mem_cons.1 h with rfl | hmem
    · unfold Leads at hleads
      omega
    · have hge := le_toNat_of_mem_continuation hmem
      omega

theorem not_mem_ofString {c : Char} (hc : c.toNat < 0x80) {s : String} (h : c ∉ s.toList) :
    UInt8.ofNat c.toNat ∉ Bytes.ofString s := by
  have hbyte : (UInt8.ofNat c.toNat).toNat = c.toNat := by
    rw [UInt8.toNat_ofNat', Nat.mod_eq_of_lt (by omega)]
  rw [Bytes.ofString_eq_flatMap]
  intro hmem
  obtain ⟨c', hc', hform⟩ := List.mem_flatMap.1 hmem
  have hsame := toNat_eq_of_mem_utf8EncodeChar hform (by omega)
  rw [hbyte] at hsame
  exact h (Char.toNat_inj.1 hsame ▸ hc')

theorem toNat_ofNat {value : Nat} (h : value.isValidChar) : (Char.ofNat value).toNat = value := by
  rw [Char.ofNat, dif_pos h]
  rfl

/-! ### The first byte of a sequence -/

/-- What the first byte of a sequence does, by its value. -/
inductive FirstByte (b : UInt8) : Step → Prop
  | ascii (hlt : b.toNat < 0x80) : FirstByte b (.char (Char.ofNat b.toNat))
  | two (hge : 0xC2 ≤ b.toNat) (hlt : b.toNat < 0xE0) :
      FirstByte b (.more (.inside 0 0x80 0xBF (b.toNat % 32)))
  | threeLow (heq : b.toNat = 0xE0) : FirstByte b (.more (.inside 1 0xA0 0xBF 0))
  | threeHigh (heq : b.toNat = 0xED) : FirstByte b (.more (.inside 1 0x80 0x9F 13))
  | three (hge : 0xE1 ≤ b.toNat) (hlt : b.toNat < 0xF0) (hne : b.toNat ≠ 0xED) :
      FirstByte b (.more (.inside 1 0x80 0xBF (b.toNat % 16)))
  | fourLow (heq : b.toNat = 0xF0) : FirstByte b (.more (.inside 2 0x90 0xBF 0))
  | four (hge : 0xF1 ≤ b.toNat) (hlt : b.toNat < 0xF4) :
      FirstByte b (.more (.inside 2 0x80 0xBF (b.toNat % 8)))
  | fourHigh (heq : b.toNat = 0xF4) : FirstByte b (.more (.inside 2 0x80 0x8F 4))
  | refused (hrange : 0x80 ≤ b.toNat ∧ b.toNat < 0xC2 ∨ 0xF4 < b.toNat) : FirstByte b .refuse

theorem first_spec (b : UInt8) : FirstByte b (first b) := by
  simp only [first, UInt8.lt_iff_toNat_lt, ← UInt8.toNat_inj, UInt8.reduceToNat]
  split
  · exact .ascii ‹_›
  split
  · exact .refused (by omega)
  split
  · exact .two (by omega) ‹_›
  split
  · exact .threeLow ‹_›
  split
  · exact .threeHigh ‹_›
  split
  · exact .three (by omega) ‹_› ‹_›
  split
  · exact .fourLow ‹_›
  split
  · exact .four (by omega) ‹_›
  split
  · exact .fourHigh ‹_›
  · exact .refused (by omega)

/-- The values whose form a reader inside a sequence may still come to: the bytes read so far have
fixed `bits`, and the next byte has a range. -/
def Reaches (owed : Nat) (low high : UInt8) (bits value : Nat) : Prop :=
  value / 64 ^ (owed + 1) = bits ∧
    low.toNat ≤ 0x80 + value / 64 ^ owed % 64 ∧ 0x80 + value / 64 ^ owed % 64 ≤ high.toNat

theorem first_of_leads {b : UInt8} {owed value : Nat} (hvalid : value.isValidChar)
    (h : Leads b owed value) :
    ∃ low high, first b = .more (.inside owed low high (value / 64 ^ (owed + 1))) ∧
      Reaches owed low high (value / 64 ^ (owed + 1)) value := by
  have hspec := first_spec b
  unfold Nat.isValidChar at hvalid
  simp only [Reaches, true_and]
  generalize first b = result at hspec ⊢
  -- The length of the form and the value's bounds leave a few kinds of first byte, whose ranges for
  -- the second byte are just what the bounds say.
  rcases h with ⟨rfl, hge, hle, hb⟩ | ⟨rfl, hge, hle, hb⟩ | ⟨rfl, hge, hb⟩
  all_goals
    simp only [Nat.reduceAdd, Nat.reducePow]
    cases hspec
  all_goals first
    | omega
    | refine ⟨_, _, congrArg (fun bits => Step.more (.inside _ _ _ bits)) (by omega), ?_, ?_⟩
      all_goals
        simp only [UInt8.reduceToNat]
        omega

/-- Every value that can be reached behind the first byte of a sequence is that of a character whose
form starts with it. -/
theorem leads_of_reaches {b : UInt8} {owed bits value : Nat} {low high : UInt8}
    (h : first b = .more (.inside owed low high bits))
    (hreaches : Reaches owed low high bits value) : value.isValidChar ∧ Leads b owed value := by
  have hspec := first_spec b
  rw [h] at hspec
  unfold Nat.isValidChar Leads
  obtain ⟨hbits, hlow, hhigh⟩ := hreaches
  cases hspec
  all_goals
    simp only [UInt8.reduceToNat, Nat.reduceAdd, Nat.reducePow, Nat.div_one] at hbits hlow hhigh
    omega

/-! ### Standing inside a sequence -/

/-- The value is that of a character, and the bytes are its form. -/
def Encodes (value : Nat) (bs : Bytes) : Prop :=
  value.isValidChar ∧ String.utf8EncodeChar (Char.ofNat value) = bs

/-- What it is to stand inside a sequence behind the bytes `seen`: every value the reader may still
come to is that of a character, whose form starts with these bytes. -/
structure Stands (owed : Nat) (low high : UInt8) (bits : Nat) (seen : Bytes) : Prop where
  low_ge : 0x80 ≤ low
  low_le : low ≤ high
  high_le : high ≤ 0xBF
  encodes : ∀ value, Reaches owed low high bits value →
    Encodes value (seen ++ continuation (owed + 1) value)

theorem stands_first {b : UInt8} {owed bits : Nat} {low high : UInt8}
    (h : first b = .more (.inside owed low high bits)) : Stands owed low high bits [b] := by
  have hspec := first_spec b
  rw [h] at hspec
  refine ⟨?_, ?_, ?_, fun value hreaches => ?_⟩
  · cases hspec <;> decide
  · cases hspec <;> decide
  · cases hspec <;> decide
  · obtain ⟨hvalid, hleads⟩ := leads_of_reaches h hreaches
    have hvalue := toNat_ofNat hvalid
    rw [← hvalue] at hleads
    have hform := utf8EncodeChar_of_leads hleads
    rw [hvalue] at hform
    exact ⟨hvalid, hform⟩

theorem Stands.toNat_range {owed bits : Nat} {low high b : UInt8} {seen : Bytes}
    (h : Stands owed low high bits seen) (hlow : low ≤ b) (hhigh : b ≤ high) :
    0x80 ≤ b.toNat ∧ b.toNat ≤ 0xBF := by
  have hge := h.low_ge
  have hle := h.high_le
  simp only [UInt8.le_iff_toNat_le, UInt8.reduceToNat] at *
  omega

theorem Stands.step_more {owed bits : Nat} {low high b : UInt8} {seen : Bytes}
    (h : Stands (owed + 1) low high bits seen) (hlow : low ≤ b) (hhigh : b ≤ high) :
    Stands owed 0x80 0xBF (bits * 64 + b.toNat % 64) (seen ++ [b]) := by
  refine ⟨by decide, by decide, by decide, fun value ⟨hbits, _⟩ => ?_⟩
  -- The byte holds the next six bits, so what is reached behind it was reached before it.
  obtain ⟨hge, hle⟩ := h.toNat_range hlow hhigh
  have hbyte : value / 64 ^ (owed + 1) % 64 = b.toNat % 64 := by omega
  have hmore : value / 64 ^ (owed + 1 + 1) = bits := by
    rw [Nat.pow_succ, ← Nat.div_div_eq_div_mul]
    omega
  rw [UInt8.le_iff_toNat_le] at hlow hhigh
  have hencodes := h.encodes value ⟨hmore, by omega, by omega⟩
  have hb : UInt8.ofNat (0x80 + value / 64 ^ (owed + 1) % 64) = b := by
    rw [← UInt8.toNat_inj, UInt8.toNat_ofNat']
    omega
  rwa [continuation, hb, List.append_cons] at hencodes

theorem Stands.step_char {bits : Nat} {low high b : UInt8} {seen : Bytes}
    (h : Stands 0 low high bits seen) (hlow : low ≤ b) (hhigh : b ≤ high) :
    String.utf8EncodeChar (Char.ofNat (bits * 64 + b.toNat % 64)) = seen ++ [b] := by
  obtain ⟨hge, hle⟩ := h.toNat_range hlow hhigh
  rw [UInt8.le_iff_toNat_le] at hlow hhigh
  have hencodes := (h.encodes (bits * 64 + b.toNat % 64) ⟨by omega, by omega, by omega⟩).2
  have hb : UInt8.ofNat (0x80 + (bits * 64 + b.toNat % 64) / 64 ^ 0 % 64) = b := by
    rw [← UInt8.toNat_inj, UInt8.toNat_ofNat']
    omega
  rwa [continuation, hb, continuation] at hencodes

/-- The reader stands there when it has read these bytes of a sequence. -/
def Place.StandsBehind : Place → Bytes → Prop
  | .between, seen => seen = []
  | .inside owed low high bits, seen => Stands owed low high bits seen

/-- **One byte.** A character is given back behind its form, and otherwise the reader still stands
behind the first bytes of one. -/
theorem step_spec {place : Place} {seen : Bytes} (h : place.StandsBehind seen) (b : UInt8) :
    match step place b with
    | .char c => String.utf8EncodeChar c = seen ++ [b]
    | .more next => next.StandsBehind (seen ++ [b])
    | .refuse => True := by
  cases place with
  | between =>
    obtain rfl : seen = [] := h
    rw [step]
    have hspec := first_spec b
    cases hfirst : first b with
    | char c =>
      rw [hfirst] at hspec
      cases hspec with
      | ascii hlt =>
        have hvalue := toNat_ofNat (.inl (Nat.lt_trans hlt (by decide)) : b.toNat.isValidChar)
        have hform := Bytes.utf8EncodeChar_of_ascii (c := Char.ofNat b.toNat) (by rwa [hvalue])
        rwa [hvalue, UInt8.ofNat_toNat] at hform
    | more next =>
      cases next with
      | between =>
        rw [hfirst] at hspec
        cases hspec
      | inside owed low high bits => exact stands_first hfirst
    | refuse => trivial
  | inside owed low high bits =>
    have hstands : Stands owed low high bits seen := h
    by_cases hrange : low ≤ b ∧ b ≤ high
    · simp only [step, if_pos hrange]
      cases owed with
      | zero => exact hstands.step_char hrange.1 hrange.2
      | succ owed => exact hstands.step_more hrange.1 hrange.2
    · simp only [step, if_neg hrange]

theorem Stands.exists_char {owed bits : Nat} {low high : UInt8} {seen : Bytes}
    (h : Stands owed low high bits seen) :
    ∃ c more, String.utf8EncodeChar c = seen ++ more ∧ more ≠ [] := by
  have hge := h.low_ge
  have hle := h.low_le
  have hhigh := h.high_le
  simp only [UInt8.le_iff_toNat_le, UInt8.reduceToNat] at hge hle hhigh
  -- The least next byte, and then only zeros, make up a value that is reached.
  have hpos : 0 < 64 ^ owed := Nat.pow_pos (by decide)
  have hfirst : (bits * 64 + (low.toNat - 0x80)) * 64 ^ owed / 64 ^ owed =
      bits * 64 + (low.toNat - 0x80) := Nat.mul_div_cancel _ hpos
  have hrest : (bits * 64 + (low.toNat - 0x80)) * 64 ^ owed / 64 ^ (owed + 1) = bits := by
    rw [Nat.pow_succ, ← Nat.div_div_eq_div_mul, hfirst]
    omega
  have hreaches : Reaches owed low high bits ((bits * 64 + (low.toNat - 0x80)) * 64 ^ owed) := by
    refine ⟨hrest, ?_, ?_⟩
    · rw [hfirst]
      omega
    · rw [hfirst]
      omega
  exact ⟨_, _, (h.encodes _ hreaches).2, List.cons_ne_nil _ _⟩

/-! ### Reading -/

theorem step_of_reaches {owed : Nat} {low high : UInt8} {bits value : Nat} :
    Reaches owed low high bits value →
      step (.inside owed low high bits) (UInt8.ofNat (0x80 + value / 64 ^ owed % 64)) =
        match owed with
        | 0 => .char (Char.ofNat value)
        | owed + 1 => .more (.inside owed 0x80 0xBF (value / 64 ^ (owed + 1))) := by
  rintro ⟨hbits, hlow, hhigh⟩
  have hbyte : (UInt8.ofNat (0x80 + value / 64 ^ owed % 64)).toNat =
      0x80 + value / 64 ^ owed % 64 := by
    rw [UInt8.toNat_ofNat']
    omega
  have hrange : low ≤ UInt8.ofNat (0x80 + value / 64 ^ owed % 64) ∧
      UInt8.ofNat (0x80 + value / 64 ^ owed % 64) ≤ high := by
    rw [UInt8.le_iff_toNat_le, UInt8.le_iff_toNat_le, hbyte]
    exact ⟨hlow, hhigh⟩
  have hvalue : bits * 64 + (0x80 + value / 64 ^ owed % 64) % 64 = value / 64 ^ owed := by
    rw [Nat.pow_succ, ← Nat.div_div_eq_div_mul] at hbits
    omega
  rw [step, if_pos hrange, hbyte, hvalue]
  cases owed with
  | zero => rw [Nat.pow_zero, Nat.div_one]
  | succ owed => rfl

theorem readFrom_continuation {owed : Nat} {low high : UInt8} {bits value : Nat}
    (h : Reaches owed low high bits value) (pending : Bytes) (text : String) (rest : Bytes) :
    readFrom (.inside owed low high bits) pending text (continuation (owed + 1) value ++ rest) =
      readFrom .between [] (text.push (Char.ofNat value)) rest := by
  induction owed generalizing low high bits pending with
  | zero =>
    rw [continuation, continuation, List.cons_append, List.nil_append, readFrom, step_of_reaches h]
  | succ owed ih =>
    rw [continuation, List.cons_append, readFrom, step_of_reaches h]
    refine ih ⟨rfl, ?_, ?_⟩ _
    · exact Nat.le_add_right _ _
    · simp only [UInt8.reduceToNat]
      omega

theorem readFrom_utf8EncodeChar (c : Char) (text : String) (rest : Bytes) :
    readFrom .between [] text (String.utf8EncodeChar c ++ rest) =
      readFrom .between [] (text.push c) rest := by
  by_cases hone : c.toNat < 0x80
  · have hlt : UInt8.ofNat c.toNat < 0x80 := by
      simp only [UInt8.lt_iff_toNat_lt, UInt8.toNat_ofNat', UInt8.reduceToNat]
      omega
    have hfirst : first (UInt8.ofNat c.toNat) = .char c := by
      rw [first, if_pos hlt, UInt8.toNat_ofNat', Nat.mod_eq_of_lt (by omega), Char.ofNat_toNat]
    rw [Bytes.utf8EncodeChar_of_ascii hone, List.cons_append, List.nil_append, readFrom, step,
      hfirst]
  · have hvalid : c.toNat.isValidChar := c.valid
    obtain ⟨b, owed, hleads⟩ := exists_leads hvalid (Nat.le_of_not_lt hone)
    obtain ⟨low, high, hfirst, hreaches⟩ := first_of_leads hvalid hleads
    rw [utf8EncodeChar_of_leads hleads, List.cons_append, readFrom, step, hfirst]
    dsimp only
    rw [readFrom_continuation hreaches, Char.ofNat_toNat]

theorem readFrom_text (place : Place) (pending : Bytes) (text : String) (bs : Bytes) :
    readFrom place pending text bs =
      (text ++ (readFrom place pending "" bs).1, (readFrom place pending "" bs).2) := by
  induction bs generalizing place pending text with
  | nil => simp [readFrom]
  | cons b rest ih =>
    simp only [readFrom]
    cases step place b with
    | char c =>
      dsimp only
      rw [ih .between [] (text.push c), ih .between [] ("".push c)]
      simp [← String.toList_inj]
    | more place => exact ih _ _ _
    | refuse => simp

/-- The bytes are the beginning, and not the whole, of a character's form. -/
def StartsChar (bs : Bytes) : Prop :=
  ∃ c more, String.utf8EncodeChar c = bs ++ more ∧ more ≠ []

theorem StartsChar.length_le {bs : Bytes} (h : StartsChar bs) : bs.length ≤ 3 := by
  obtain ⟨c, more, hform, hmore⟩ := h
  have hlength := congrArg List.length hform
  rw [String.length_utf8EncodeChar, List.length_append] at hlength
  have hfour := c.utf8Size_le_four
  have hpos := List.length_pos_iff.2 hmore
  omega

/-- A reading accounts for all the bytes, unless it ends at one that cannot stand where it does. -/
def Ending.Accounts (ending : Ending) (text : String) (bs : Bytes) : Prop :=
  match ending with
  | .complete => bs = Bytes.ofString text
  | .unfinished tail => bs = Bytes.ofString text ++ tail ∧ StartsChar tail
  | .malformed => True

theorem accounts_readFrom {place : Place} {pending : Bytes} (h : place.StandsBehind pending.reverse)
    (text : String) (bs : Bytes) :
    (readFrom place pending text bs).2.Accounts (readFrom place pending text bs).1
      (Bytes.ofString text ++ pending.reverse ++ bs) := by
  fun_induction readFrom place pending text bs with
  | case1 place pending text =>
    cases place with
    | between => simp_all [Ending.Accounts, Place.StandsBehind]
    | inside owed low high bits => exact ⟨List.append_nil _, h.exists_char⟩
  | case2 place pending text b rest c hstep ih =>
    have hspec := step_spec h b
    rw [hstep] at hspec
    have hread := ih rfl
    rw [Bytes.ofString_push, hspec] at hread
    simpa using hread
  | case3 place pending text b rest next hstep ih =>
    have hspec := step_spec h b
    rw [hstep] at hspec
    have hread := ih (by rwa [List.reverse_cons])
    simpa using hread
  | case4 => trivial

/-- **What is read is what is there.** -/
theorem accounts_read (bs : Bytes) : (read bs).2.Accounts (read bs).1 bs := by
  have hbetween : Place.between.StandsBehind ([] : Bytes).reverse := rfl
  exact accounts_readFrom hbetween "" bs

theorem readFrom_append_of_malformed {place : Place} {pending : Bytes} {text : String} {bs : Bytes}
    (more : Bytes) (h : (readFrom place pending text bs).2 = .malformed) :
    readFrom place pending text (bs ++ more) = readFrom place pending text bs := by
  fun_induction readFrom place pending text bs with
  | case1 place =>
    dsimp only at h
    split at h <;> simp at h
  | case2 place pending text b rest c hstep ih =>
    simpa only [List.cons_append, readFrom, hstep] using ih h
  | case3 place pending text b rest next hstep ih =>
    simpa only [List.cons_append, readFrom, hstep] using ih h
  | case4 place pending text b rest hstep => simp only [List.cons_append, readFrom, hstep]

/-- Behind the form of a text, reading goes on as from the start. -/
theorem read_ofString_append (s : String) (bs : Bytes) :
    read (Bytes.ofString s ++ bs) = (s ++ (read bs).1, (read bs).2) := by
  have hread (cs : List Char) (text : String) :
      readFrom .between [] text (cs.flatMap String.utf8EncodeChar ++ bs) =
        readFrom .between [] (text ++ String.ofList cs) bs := by
    induction cs generalizing text with
    | nil => simp
    | cons c cs ih =>
      rw [List.flatMap_cons, List.append_assoc, readFrom_utf8EncodeChar, ih]
      congr 1
      simp [← String.toList_inj]
  rw [read, Bytes.ofString_eq_flatMap, hread, String.ofList_toList, readFrom_text]
  simp [read]

@[simp] theorem read_ofString (s : String) : read (Bytes.ofString s) = (s, .complete) := by
  have h := read_ofString_append s []
  simpa [read, readFrom] using h

/-- **Only the form of a text is read as a text.** -/
theorem decode?_eq_some_iff {bs : Bytes} {s : String} :
    decode? bs = some s ↔ bs = Bytes.ofString s := by
  constructor
  · intro h
    unfold decode? at h
    split at h
    · next text hread =>
      obtain rfl := Option.some.inj h
      have haccounts := accounts_read bs
      rwa [hread] at haccounts
    · simp at h
  · rintro rfl
    rw [decode?, read_ofString]

theorem decode?_ofString (s : String) : decode? (Bytes.ofString s) = some s :=
  decode?_eq_some_iff.2 rfl

def StartsText (bs : Bytes) : Prop :=
  ∃ s, bs <+: Bytes.ofString s

theorem StartsChar.startsText {bs : Bytes} (h : StartsChar bs) : StartsText bs := by
  obtain ⟨c, more, hchar, -⟩ := h
  refine ⟨"".push c, more, ?_⟩
  rw [Bytes.ofString_push, hchar]
  rfl

theorem startsText_ofString_append {s : String} {bs : Bytes} (h : StartsText bs) :
    StartsText (Bytes.ofString s ++ bs) := by
  obtain ⟨t, hbs⟩ := h
  refine ⟨s ++ t, ?_⟩
  rw [Bytes.ofString_append]
  exact (List.prefix_append_right_inj _).2 hbs

/-- **Bytes are refused exactly when no text starts with them.** -/
theorem read_malformed_iff (bs : Bytes) : (read bs).2 = .malformed ↔ ¬ StartsText bs := by
  constructor
  · rintro h ⟨s, more, hmore⟩
    have hread : read (bs ++ more) = read bs := readFrom_append_of_malformed more h
    rw [hmore, read_ofString] at hread
    rw [← hread] at h
    simp at h
  · intro h
    have haccounts := accounts_read bs
    cases hending : (read bs).2 with
    | complete =>
      rw [hending] at haccounts
      exact absurd ⟨_, [], (List.append_nil _).trans haccounts⟩ h
    | unfinished tail =>
      rw [hending] at haccounts
      rw [haccounts.1] at h
      exact absurd (startsText_ofString_append haccounts.2.startsText) h
    | malformed => rfl

theorem startsText_ofString_append_iff {s : String} {bs : Bytes} :
    StartsText (Bytes.ofString s ++ bs) ↔ StartsText bs := by
  refine ⟨fun h => Classical.byContradiction fun hnot => ?_, startsText_ofString_append⟩
  have hrefused := (read_malformed_iff bs).2 hnot
  refine (read_malformed_iff (Bytes.ofString s ++ bs)).1 ?_ h
  rw [read_ofString_append, hrefused]

/-- A text may be read in two parts: the characters that are whole in the first part are given back,
and what is left over goes in front of the second. -/
theorem read_of_append_eq_ofString {bs more : Bytes} {text : String}
    (h : bs ++ more = Bytes.ofString text) :
    ∃ body tail later,
      (read bs = (body, .complete) ∧ tail = [] ∨ read bs = (body, .unfinished tail)) ∧
        tail ++ more = Bytes.ofString later ∧ text = body ++ later := by
  have haccounts := accounts_read bs
  have hwhole (body : String) (tail : Bytes) (hbs : bs = Bytes.ofString body ++ tail) :
      ∃ later, tail ++ more = Bytes.ofString later ∧ text = body ++ later := by
    have hread := read_ofString_append body (tail ++ more)
    rw [← List.append_assoc, ← hbs, h, read_ofString, Prod.mk.injEq] at hread
    have hlater := accounts_read (tail ++ more)
    rw [← hread.2] at hlater
    exact ⟨_, hlater, hread.1⟩
  rcases hread : read bs with ⟨body, ending⟩
  rw [hread] at haccounts
  cases ending with
  | complete =>
    obtain ⟨later, hlater, htext⟩ := hwhole body [] (by rw [List.append_nil]; exact haccounts)
    exact ⟨body, [], later, .inl ⟨rfl, rfl⟩, hlater, htext⟩
  | unfinished tail =>
    obtain ⟨later, hlater, htext⟩ := hwhole body tail haccounts.1
    exact ⟨body, tail, later, .inr rfl, hlater, htext⟩
  | malformed =>
    have hstarts : StartsText bs := ⟨text, more, h⟩
    exact absurd hstarts ((read_malformed_iff bs).1 (by rw [hread]))

end Utf8

end WebClient
