/-
  The compact written form of JSON.

  No white space; the members of an object in their order.  In a string a
  quotation mark and a backslash are escaped, control characters have their
  short escape or four hexadecimal digits, and everything else stands for
  itself.
-/
import Bearer.Json.Value
import Bearer.Text.Hex

namespace Bearer.Json

/-- The written form of one character of a string. -/
def escape (c : Char) : List Char :=
  if c = '"' then ['\\', '"']
  else if c = '\\' then ['\\', '\\']
  else if c = '\n' then ['\\', 'n']
  else if c = '\r' then ['\\', 'r']
  else if c = '\t' then ['\\', 't']
  else if c.toNat = 8 then ['\\', 'b']
  else if c.toNat = 12 then ['\\', 'f']
  else if c.toNat < 32 then
    ['\\', 'u', '0', '0', Text.Hex.digit (c.toNat / 16), Text.Hex.digit (c.toNat % 16)]
  else [c]

/-- A string in quotation marks. -/
def writeText (s : String) : List Char := '"' :: s.toList.flatMap escape ++ ['"']

/-- A string; one that stands for no text is written as half of a surrogate pair. -/
def writeString : Option String → List Char
  | some s => writeText s
  | none => ['"', '\\', 'u', 'd', '8', '0', '0', '"']

namespace Value

mutual

/-- The written form of a value. -/
def write : Value → List Char
  | null => ['n', 'u', 'l', 'l']
  | bool true => ['t', 'r', 'u', 'e']
  | bool false => ['f', 'a', 'l', 's', 'e']
  | number literal => literal
  | string s => writeString s
  | array [] => ['[', ']']
  | array (v :: vs) => '[' :: v.write ++ writeItems vs ++ [']']
  | object [] => ['\x7b', '\x7d']
  | object ((name, v) :: ms) =>
    '\x7b' :: writeString name ++ ':' :: v.write ++ writeMembers ms ++ ['\x7d']

/-- Further items of an array, each after a comma. -/
def writeItems : List Value → List Char
  | [] => []
  | v :: vs => ',' :: v.write ++ writeItems vs

/-- Further members of an object, each after a comma. -/
def writeMembers : List (Option String × Value) → List Char
  | [] => []
  | (name, v) :: ms => ',' :: writeString name ++ ':' :: v.write ++ writeMembers ms

end

/-- The written form of a value as a string. -/
def render (v : Value) : String := String.ofList v.write

end Value

end Bearer.Json
