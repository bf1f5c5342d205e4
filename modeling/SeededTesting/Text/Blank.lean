/-! # Blank characters

The characters that surround a text without belonging to it: the white space of the Unicode
standard together with the four information separators U+001C to U+001F.
-/

namespace SeededTesting.Text

/-- White space in the widest sense. -/
def isBlank (c : Char) : Bool :=
  let n := c.toNat
  (9 ≤ n && n ≤ 13) || (28 ≤ n && n ≤ 32) || n == 0x85 || n == 0xA0 || n == 0x1680 ||
    (0x2000 ≤ n && n ≤ 0x200A) || n == 0x2028 || n == 0x2029 || n == 0x202F || n == 0x205F ||
    n == 0x3000

/-- Drops the characters of a class from both ends. -/
def trimBy (outside : Char → Bool) (text : List Char) : List Char :=
  ((text.dropWhile outside).reverse.dropWhile outside).reverse

/-- Drops blank characters from both ends. -/
def trim (text : List Char) : List Char :=
  trimBy isBlank text

theorem isBlank_of_isWhitespace {c : Char} (h : c.isWhitespace = true) : isBlank c = true := by
  simp only [Char.isWhitespace, Bool.or_eq_true, decide_eq_true_eq] at h
  rcases h with ((rfl | rfl) | rfl) | rfl <;> rfl

end SeededTesting.Text
