/-
  Texts between quotation marks.

  A few characters are written as a backslash and a letter.  What is not seen
  when it is printed is written as its number in hexadecimal, and all else as
  itself.
-/
import Bearer.Text.Visible

namespace Bearer.Text

/-- A character between quotation marks. -/
def quoteChar (c : Char) : List Char :=
  if c = '"' ∨ c = '\\' then ['\\', c]
  else if c = '\n' then ['\\', 'n']
  else if c = '\r' then ['\\', 'r']
  else if c = '\t' then ['\\', 't']
  else if c.toNat = 0 then ['\\', '0']
  else if isVisible c then [c]
  else ['\\', 'u', '\x7b'] ++ Nat.toDigits 16 c.toNat ++ ['\x7d']

/-- A text between quotation marks. -/
def quote (s : String) : String :=
  String.ofList ('"' :: s.toList.flatMap quoteChar ++ ['"'])

end Bearer.Text
