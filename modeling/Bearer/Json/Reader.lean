/-
  Reading JSON.

  The input is a list of symbols: a character, or nothing for a byte that
  belongs to none.  Such a byte may stand in a string, which then has no text,
  and nowhere else.  The reader accepts the grammar of RFC 8259 and no other
  white space, nesting of any depth, and any member names, repeated or not;
  what a record makes of its members is `Value.members?`.
-/
import Bearer.Json.Value
import Bearer.Text.Hex

namespace Bearer.Json

/-- One symbol of the input: a character, or nothing for a stray byte. -/
abbrev Symbol := Option Char

/-- The input without the white space it starts with. -/
def skipSpace : List Symbol → List Symbol
  | some c :: s => if c = ' ' ∨ c = '\n' ∨ c = '\t' ∨ c = '\r' then skipSpace s else some c :: s
  | s => s

/-! ## Strings -/

/-- A part of a string between its quotation marks. -/
inductive Piece where
  /-- A character, plain or after a backslash. -/
  | char (c : Char)
  /-- A code unit of four hexadecimal digits. -/
  | unit (code : Nat)
  /-- A byte that belongs to no character. -/
  | stray

/-- The value of a hexadecimal digit in either case. -/
def hexValue? (s : Symbol) : Option Nat := s.bind Text.Hex.value?

/-- The code unit of four hexadecimal digits. -/
def codeUnit? (a b c d : Symbol) : Option Nat := do
  let a ← hexValue? a
  let b ← hexValue? b
  let c ← hexValue? c
  let d ← hexValue? d
  return ((a * 16 + b) * 16 + c) * 16 + d

/-- The character that a short escape stands for. -/
def unescape? (c : Char) : Option Char :=
  if c = '"' ∨ c = '\\' ∨ c = '/' then some c
  else if c = 'b' then some (Char.ofNat 8)
  else if c = 'f' then some (Char.ofNat 12)
  else if c = 'n' then some '\n'
  else if c = 'r' then some '\r'
  else if c = 't' then some '\t'
  else none

/-- Reads the rest of a string, up to and including the closing quotation mark. -/
def readPieces : List Symbol → Option (List Piece × List Symbol)
  | [] => none
  | none :: s => (readPieces s).map fun (ps, rest) => (.stray :: ps, rest)
  | some c :: s =>
    if c = '"' then some ([], s)
    else if c = '\\' then
      match s with
      | some 'u' :: a :: b :: c :: d :: s => do
        let code ← codeUnit? a b c d
        let (ps, rest) ← readPieces s
        return (.unit code :: ps, rest)
      | some e :: s => do
        let c ← unescape? e
        let (ps, rest) ← readPieces s
        return (.char c :: ps, rest)
      | _ => none
    -- Control characters stand in no string as themselves.
    else if c.toNat < 32 then none
    else (readPieces s).map fun (ps, rest) => (.char c :: ps, rest)

/-- The characters of a string.  Two code units may form a surrogate pair; half a pair, like a
stray byte, leaves the string without a text. -/
def decodePieces : List Piece → Option (List Char)
  | [] => some []
  | .char c :: ps => (decodePieces ps).map (c :: ·)
  | .stray :: _ => none
  | .unit high :: ps =>
    -- Anything but half of a pair stands for itself.
    if high < 0xD800 ∨ 0xE000 ≤ high then (decodePieces ps).map (Char.ofNat high :: ·)
    else if 0xDC00 ≤ high then none
    else
      match ps with
      | .unit low :: ps =>
        if 0xDC00 ≤ low ∧ low < 0xE000 then
          (decodePieces ps).map
            (Char.ofNat (0x10000 + (high - 0xD800) * 0x400 + (low - 0xDC00)) :: ·)
        else none
      | _ => none

/-- Reads a string after its opening quotation mark. -/
def readString (s : List Symbol) : Option (Option String × List Symbol) :=
  (readPieces s).map fun (ps, rest) => ((decodePieces ps).map String.ofList, rest)

/-! ## Numbers and words -/

/-- Splits off the leading digits. -/
def spanDigits : List Symbol → List Char × List Symbol
  | some c :: s =>
    if Text.Decimal.isDigit c then
      let (digits, rest) := spanDigits s
      (c :: digits, rest)
    else ([], some c :: s)
  | s => ([], s)

/-- The whole part of a number: a single zero, or digits that start with another one. -/
def readWhole : List Symbol → Option (List Char × List Symbol)
  | some '0' :: s => some (['0'], s)
  | s =>
    match spanDigits s with
    | ([], _) => none
    | found => some found

/-- The decimals of a number, which may be missing. -/
def readDecimals : List Symbol → Option (List Char × List Symbol)
  | some '.' :: s =>
    match spanDigits s with
    | ([], _) => none
    | (digits, rest) => some ('.' :: digits, rest)
  | s => some ([], s)

/-- The exponent of a number, which may be missing. -/
def readExponent : List Symbol → Option (List Char × List Symbol)
  | some c :: s =>
    if c = 'e' ∨ c = 'E' then
      let (sign, s) := match s with
        | some d :: rest => if d = '+' ∨ d = '-' then ([d], rest) else ([], s)
        | _ => ([], s)
      match spanDigits s with
      | ([], _) => none
      | (digits, rest) => some (c :: sign ++ digits, rest)
    else some ([], some c :: s)
  | s => some ([], s)

/-- Reads a number. -/
def readNumber (s : List Symbol) : Option (List Char × List Symbol) := do
  let (sign, s) := match s with
    | some '-' :: rest => (['-'], rest)
    | _ => ([], s)
  let (whole, s) ← readWhole s
  let (decimals, s) ← readDecimals s
  let (exponent, s) ← readExponent s
  return (sign ++ whole ++ decimals ++ exponent, s)

/-- The rest of the input after a given word. -/
def afterWord? : List Char → List Symbol → Option (List Symbol)
  | [], s => some s
  | c :: word, some d :: s => if c = d then afterWord? word s else none
  | _ :: _, _ => none

/-! ## Values -/

mutual

/-- Reads a value after white space; `fuel` bounds the nesting. -/
def readValue : Nat → List Symbol → Option (Value × List Symbol)
  | 0, _ => none
  | fuel + 1, s =>
    match skipSpace s with
    | some '[' :: s =>
      match skipSpace s with
      | some ']' :: s => some (.array [], s)
      | s => (readItems fuel s).map fun (vs, rest) => (.array vs, rest)
    | some '\x7b' :: s =>
      match skipSpace s with
      | some '\x7d' :: s => some (.object [], s)
      | s => (readMembers fuel s).map fun (ms, rest) => (.object ms, rest)
    | some '"' :: s => (readString s).map fun (t, rest) => (.string t, rest)
    | some 'n' :: s => (afterWord? ['u', 'l', 'l'] s).map fun rest => (.null, rest)
    | some 't' :: s => (afterWord? ['r', 'u', 'e'] s).map fun rest => (.bool true, rest)
    | some 'f' :: s => (afterWord? ['a', 'l', 's', 'e'] s).map fun rest => (.bool false, rest)
    | s => (readNumber s).map fun (literal, rest) => (.number literal, rest)

/-- Reads the items of an array up to its closing bracket. -/
def readItems : Nat → List Symbol → Option (List Value × List Symbol)
  | 0, _ => none
  | fuel + 1, s => do
    let (v, s) ← readValue fuel s
    match skipSpace s with
    | some ',' :: s =>
      let (vs, s) ← readItems fuel s
      return (v :: vs, s)
    | some ']' :: s => return ([v], s)
    | _ => none

/-- Reads the members of an object up to its closing brace. -/
def readMembers : Nat → List Symbol → Option (List (Option String × Value) × List Symbol)
  | 0, _ => none
  | fuel + 1, s => do
    let s ← match skipSpace s with
      | some '"' :: s => some s
      | _ => none
    let (name, s) ← readString s
    let s ← match skipSpace s with
      | some ':' :: s => some s
      | _ => none
    let (v, s) ← readValue fuel s
    match skipSpace s with
    | some ',' :: s =>
      let (ms, s) ← readMembers fuel s
      return ((name, v) :: ms, s)
    | some '\x7d' :: s => return ([(name, v)], s)
    | _ => none

end

/-- Reads a value from the whole of the input. -/
def read? (s : List Symbol) : Option Value :=
  match readValue (2 * s.length + 2) s with
  | some (v, rest) => if (skipSpace rest).isEmpty then some v else none
  | none => none

/-- Reads a value from the whole of a text. -/
def readText? (s : String) : Option Value := read? (s.toList.map some)

end Bearer.Json
