/-!
# White space

A character is blank when Unicode gives it the property White_Space. Header values, chunk sizes,
URLs and settings are all read with the blanks around them taken off, so one definition serves
every reader, and trimming is idempotent.
-/

namespace WebClient.Text

/-- The characters with Unicode's property White_Space. -/
def isBlank (c : Char) : Bool :=
  (0x09 ≤ c.val && c.val ≤ 0x0D) || c.val == 0x20 || c.val == 0x85 || c.val == 0xA0 ||
  c.val == 0x1680 || (0x2000 ≤ c.val && c.val ≤ 0x200A) || c.val == 0x2028 || c.val == 0x2029 ||
  c.val == 0x202F || c.val == 0x205F || c.val == 0x3000

/-- The characters left when the blanks at both ends are taken off. -/
def trimChars (cs : List Char) : List Char :=
  ((cs.dropWhile isBlank).reverse.dropWhile isBlank).reverse

def trim (s : String) : String :=
  String.ofList (trimChars s.toList)

@[simp] theorem toList_trim (s : String) : (trim s).toList = trimChars s.toList := by
  simp [trim]

@[simp] theorem trimChars_nil : trimChars [] = [] := rfl

theorem trimChars_eq_self {cs : List Char} (head : ∀ c ∈ cs.head?, isBlank c = false)
    (last : ∀ c ∈ cs.getLast?, isBlank c = false) : trimChars cs = cs := by
  have keep : ∀ ds : List Char,
      (∀ c ∈ ds.head?, isBlank c = false) → ds.dropWhile isBlank = ds := by
    intro ds h
    cases ds with
    | nil => rfl
    | cons d ds => simp [h d (by simp)]
  rw [trimChars, keep cs head, keep cs.reverse (by simpa using last), List.reverse_reverse]

theorem trimChars_append {cs blanks : List Char} (h : ∀ c ∈ blanks, isBlank c = true) :
    trimChars (cs ++ blanks) = trimChars cs := by
  have hall : blanks.dropWhile isBlank = [] := by
    rw [← List.append_nil blanks, List.dropWhile_append_of_pos h, List.dropWhile_nil]
  have hback : ∀ c ∈ blanks.reverse, isBlank c = true := by simpa using h
  rw [trimChars, trimChars, List.dropWhile_append, hall]
  cases hcs : (cs.dropWhile isBlank).isEmpty with
  | true => simp [List.isEmpty_iff.1 hcs]
  | false => simp [List.dropWhile_append_of_pos hback]

end WebClient.Text
