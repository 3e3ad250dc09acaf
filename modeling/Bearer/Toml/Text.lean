/-
  White space, comments and strings in TOML.

  A string is basic, with escapes, or literal, without; each can stand on one
  line or run over several.  Control characters other than the tab stand in
  no string and no comment.
-/
import Bearer.Text.Hex

namespace Bearer.Toml

/-- Whether the character is white space within a line. -/
def isSpace (c : Char) : Bool := c = ' ' || c = '\t'

/-- The input without the white space it starts with. -/
def skipSpace (s : List Char) : List Char := s.dropWhile isSpace

/-- Whether the character may stand in a string or comment as itself. -/
def isPlain (c : Char) : Bool := c = '\t' || (32 ≤ c.toNat && c.toNat ≠ 127)

/-- The input after the line break that it starts with. -/
def afterBreak? : List Char → Option (List Char)
  | '\n' :: s => some s
  | '\r' :: '\n' :: s => some s
  | _ => none

/-- The input after a comment, if it starts with one. -/
def skipComment : List Char → List Char
  | '#' :: s => s.dropWhile isPlain
  | s => s

/-- The input after the rest of a line that says nothing more. -/
def endLine? (s : List Char) : Option (List Char) :=
  match skipComment (skipSpace s) with
  | [] => some []
  | s => afterBreak? s

/-- Skips lines that say nothing and the white space before what comes next.  Each round takes a
line break, of which the input has at most `fuel`. -/
def skipBlank (fuel : Nat) (s : List Char) : List Char :=
  let s := skipSpace s
  match fuel with
  | 0 => s
  | fuel + 1 =>
    match afterBreak? (skipComment s) with
    | some rest => skipBlank fuel rest
    | none => s

/-- Skips white space, comments and line breaks. -/
def skipLines (s : List Char) : List Char := skipBlank s.length s

/-- Whether the character may stand in a string on several lines, in front of the rest of it. -/
def mayStand (c : Char) (s : List Char) : Bool :=
  isPlain c || c = '\n' || (c = '\r' && s.head? = some '\n')

/-! ## Escapes -/

/-- The character whose number is written in hexadecimal. -/
def hexChar? (digits : List Char) : Option Char := do
  let n ← digits.foldlM (fun n c => (Text.Hex.value? c).map (16 * n + ·)) 0
  if n.isValidChar then some (Char.ofNat n) else none

/-- The character that a letter after a backslash stands for. -/
def unescape? (c : Char) : Option Char :=
  if c = '"' ∨ c = '\\' then some c
  else if c = 'b' then some (Char.ofNat 8)
  else if c = 't' then some '\t'
  else if c = 'n' then some '\n'
  else if c = 'f' then some (Char.ofNat 12)
  else if c = 'r' then some '\r'
  else if c = 'e' then some (Char.ofNat 27)
  else none

/-- How many hexadecimal digits follow a letter after a backslash. -/
def escapeWidth (c : Char) : Nat :=
  if c = 'x' then 2 else if c = 'u' then 4 else if c = 'U' then 8 else 0

/-- Whether a backslash in front of this joins lines. -/
def joinsLines (s : List Char) : Bool := (afterBreak? (skipSpace s)).isSome

/-- What the reader of a string is in the middle of. -/
inductive Pending where
  | nothing
  /-- White space and line breaks are passed over. -/
  | skipping
  /-- A backslash came. -/
  | escape
  /-- So many hexadecimal digits are to come, after these. -/
  | digits (missing : Nat) (seen : List Char)

/-- The characters that the inside of a basic string stands for. -/
def unescape (p : Pending) : List Char → Option (List Char)
  | [] =>
    match p with
    | .nothing | .skipping => some []
    | _ => none
  | c :: s =>
    let plain :=
      if c = '\\' then
        -- A backslash at the end of a line joins it to the next line that says something.
        if joinsLines s then unescape .skipping s else unescape .escape s
      else if mayStand c s then (unescape .nothing s).map (c :: ·)
      else none
    match p with
    | .nothing => plain
    | .skipping =>
      if isSpace c ∨ (c < ' ' ∧ mayStand c s) then unescape .skipping s else plain
    | .escape =>
      match escapeWidth c with
      | 0 => do return (← unescape? c) :: (← unescape .nothing s)
      | n => unescape (.digits n []) s
    | .digits missing seen =>
      let seen := seen ++ [c]
      if missing ≤ 1 then do return (← hexChar? seen) :: (← unescape .nothing s)
      else unescape (.digits (missing - 1) seen) s

/-! ## Strings -/

/-- Splits at the closing quotation mark of a string on one line. -/
def splitLine (escapes : Bool) (quote : Char) : List Char → Option (List Char × List Char)
  | [] => none
  | c :: s =>
    if c = quote then some ([], s)
    else if c = '\\' ∧ escapes then
      match s with
      | d :: s =>
        if isPlain d then
          (splitLine escapes quote s).map fun (inner, rest) => (c :: d :: inner, rest)
        else none
      | [] => none
    else if isPlain c then (splitLine escapes quote s).map fun (inner, rest) => (c :: inner, rest)
    else none

/-- Splits at the three closing quotation marks of a string on several lines.  Up to two more in
front of them belong to the string. -/
def splitLines (escapes : Bool) (quote : Char) : List Char → Option (List Char × List Char)
  | [] => none
  | a :: s =>
    if a = quote ∧ s.take 2 = [quote, quote] then
      let extra := ((s.drop 2).take 2).takeWhile (· = quote)
      some (extra, s.drop (2 + extra.length))
    else if a = '\\' ∧ escapes then
      match s with
      | b :: s => (splitLines escapes quote s).map fun (inner, rest) => (a :: b :: inner, rest)
      | [] => none
    else (splitLines escapes quote s).map fun (inner, rest) => (a :: inner, rest)

/-- The characters of a literal string, if they may all stand in one. -/
def literal? : List Char → Option (List Char)
  | [] => some []
  | c :: s =>
    if mayStand c s then (literal? s).map (c :: ·) else none

/-- The characters that the inside of a string stands for. -/
def decode (quote : Char) (inner : List Char) : Option String :=
  (if quote = '"' then unescape .nothing inner else literal? inner).map String.ofList

/-- Reads a string on one line, if the input starts with one. -/
def readLineString : List Char → Option (String × List Char)
  | q :: s =>
    if q = '"' ∨ q = '\'' then do
      let (inner, rest) ← splitLine (q = '"') q s
      return (← decode q inner, rest)
    else none
  | [] => none

/-- Reads a string on one line or several, if the input starts with one.  A line break right after
the opening quotation marks does not count. -/
def readString : List Char → Option (String × List Char)
  | '"' :: '"' :: '"' :: s => do
    let (inner, rest) ← splitLines true '"' ((afterBreak? s).getD s)
    return (← decode '"' inner, rest)
  | '\'' :: '\'' :: '\'' :: s => do
    let (inner, rest) ← splitLines false '\'' ((afterBreak? s).getD s)
    return (← decode '\'' inner, rest)
  | s => readLineString s

end Bearer.Toml
