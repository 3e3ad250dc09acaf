/-
  Hexadecimal digits.

  Written in lower case, read in either.  Main statement: `value?_digit`, what
  is written reads back.
-/

namespace Bearer.Text.Hex

/-- The digit of a number below 16. -/
def digit (n : Nat) : Char := Nat.digitChar n

/-- The value of a digit in either case. -/
def value? (c : Char) : Option Nat :=
  if '0' ≤ c ∧ c ≤ '9' then some (c.toNat - '0'.toNat)
  else if 'a' ≤ c ∧ c ≤ 'f' then some (c.toNat - 'a'.toNat + 10)
  else if 'A' ≤ c ∧ c ≤ 'F' then some (c.toNat - 'A'.toNat + 10)
  else none

theorem value?_digit {n : Nat} (h : n < 16) : value? (digit n) = some n := by
  have : ∀ n : Fin 16, value? (digit n.val) = some n.val := by decide
  exact this ⟨n, h⟩

end Bearer.Text.Hex
