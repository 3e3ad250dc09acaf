/-
  White space.

  The characters with the White_Space property of the Unicode character
  database.  A time written in text may have them between its parts.
-/

namespace Bearer.Text

/-- Whether the character is white space: a table of the Unicode property, as inclusive ranges. -/
def isBlank (c : Char) : Bool :=
  let n := c.toNat
  (0x09 ≤ n && n ≤ 0x0D) || n = 0x20 || n = 0x85 || n = 0xA0 || n = 0x1680 ||
    (0x2000 ≤ n && n ≤ 0x200A) || n = 0x2028 || n = 0x2029 || n = 0x202F || n = 0x205F ||
    n = 0x3000

/-- The text without the white space it starts with. -/
def skipBlanks (s : List Char) : List Char := s.dropWhile isBlank

@[simp] theorem skipBlanks_cons_of_not {c : Char} {s : List Char} (h : isBlank c = false) :
    skipBlanks (c :: s) = c :: s := by simp [skipBlanks, h]

end Bearer.Text
