/-
  Instants in text.

  The written form is RFC 3339 in universal time: a date, the letter `T`, a
  time of day with 0, 3, 6 or 9 decimals (the fewest that lose nothing) and
  `Z`.  Years before 0 or after 9999 carry a sign.

  The reader is more generous than the writer: white space may stand between
  the parts, numbers may lack their leading zeros, the separator may be `t` or
  a space, the zone may be `UTC` in any case or an offset whose parts are
  separated by colons and white space, decimals past the ninth are dropped, and
  second 60 is a leap second.
-/
import Bearer.Text.Blank
import Bearer.Text.Decimal
import Bearer.Time.Instant

namespace Bearer.Rfc3339

open Text (isBlank skipBlanks)
open Text.Decimal (digit? isDigit writeNat writePadded)

/-! ## Writing -/

/-- A year: four digits, or a sign and at least four digits outside 0 to 9999. -/
def writeYear (year : Int) : List Char :=
  if 0 ≤ year ∧ year ≤ 9999 then writePadded 4 year.toNat
  else (if year < 0 then '-' else '+') :: writePadded 4 year.natAbs

/-- A number in two digits. -/
def writeTwo (n : Nat) : List Char := writePadded 2 n

/-- A point and the fewest decimals, in groups of three, that lose nothing. -/
def writeFraction (nanos : Nat) : List Char :=
  if nanos = 0 then []
  else if nanos % 1000000 = 0 then '.' :: writePadded 3 (nanos / 1000000)
  else if nanos % 1000 = 0 then '.' :: writePadded 6 (nanos / 1000)
  else '.' :: writePadded 9 nanos

/-- The written form of an instant. -/
def write (t : Instant) : List Char :=
  let date := Calendar.date (t.second / 86400)
  let inDay := (t.second % 86400).toNat
  let leap := 1000000000 ≤ t.nanos
  let second := if leap then 60 else inDay % 60
  let nanos := if leap then t.nanos - 1000000000 else t.nanos
  writeYear date.year ++ '-' :: writeTwo date.month ++ '-' :: writeTwo date.day ++
    'T' :: writeTwo (inDay / 3600) ++ ':' :: writeTwo (inDay / 60 % 60) ++
    ':' :: writeTwo second ++ writeFraction nanos ++ ['Z']

/-- The written form of an instant as a string. -/
def text (t : Instant) : String := String.ofList (write t)

/-! ## Reading -/

/-- Splits off at most `limit` leading digits. -/
def spanDigits : Nat → List Char → List Char × List Char
  | 0, s => ([], s)
  | _, [] => ([], [])
  | limit + 1, c :: s =>
    if isDigit c then
      let (digits, rest) := spanDigits limit s
      (c :: digits, rest)
    else ([], c :: s)

/-- The value of a run of digits. -/
def digitsValue (digits : List Char) : Nat :=
  digits.foldl (fun n c => 10 * n + (digit? c).getD 0) 0

/-- At least one and at most `limit` digits. -/
def readDigits? (limit : Nat) (s : List Char) : Option (Nat × List Char) :=
  let (digits, rest) := spanDigits limit s
  if digits.isEmpty then none else some (digitsValue digits, rest)

/-- A number of at most two digits after white space. -/
def readTwo? (s : List Char) : Option (Nat × List Char) := readDigits? 2 (skipBlanks s)

/-- A year after white space: up to four digits, or a sign and any number of them. -/
def readYear? (s : List Char) : Option (Int × List Char) :=
  match skipBlanks s with
  | '-' :: rest => (readDigits? rest.length rest).map fun (n, rest) => (-(n : Int), rest)
  | '+' :: rest => (readDigits? rest.length rest).map fun (n, rest) => ((n : Int), rest)
  | s => (readDigits? 4 s).map fun (n, rest) => ((n : Int), rest)

/-- One given character after white space. -/
def expect? (c : Char) (s : List Char) : Option (List Char) :=
  match skipBlanks s with
  | d :: rest => if d = c then some rest else none
  | [] => none

/-- The decimals of a second, in nanoseconds; digits past the ninth are dropped. -/
def readFraction? (s : List Char) : Option (Nat × List Char) :=
  match s with
  | '.' :: rest =>
    let (digits, after) := spanDigits 9 rest
    if digits.isEmpty then none
    else some (digitsValue digits * Nat.pow 10 (9 - digits.length), after.dropWhile isDigit)
  | s => some (0, s)

/-- Two digits with nothing before them. -/
def readPair? : List Char → Option (Nat × List Char)
  | c :: d :: rest => do
    let tens ← digit? c
    let ones ← digit? d
    return (10 * tens + ones, rest)
  | _ => none

/-- The distance of a zone from universal time, in seconds. -/
def readZone? (s : List Char) : Option (Int × List Char) :=
  match skipBlanks s with
  | c :: rest =>
    if c = 'Z' ∨ c = 'z' then some (0, rest)
    else if c = '+' ∨ c = '-' ∨ c = '\u2212' then do
      let (hours, rest) ← readPair? rest
      let (minutes, rest) ← readPair? (rest.dropWhile fun c => c = ':' || isBlank c)
      if minutes < 60 ∧ hours < 24 then
        let distance : Int := hours * 3600 + minutes * 60
        some (if c = '+' then distance else -distance, rest)
      else none
    else
      match rest with
      | d :: e :: rest =>
        if c.toUpper = 'U' ∧ d.toUpper = 'T' ∧ e.toUpper = 'C' then some (0, rest) else none
      | _ => none
  | [] => none

/-- The instant of a date, a time of day and a distance from universal time. -/
def assemble? (date : Calendar.Date) (hour minute second nanos : Nat) (distance : Int) :
    Option Instant :=
  if date.Valid ∧ -262143 ≤ date.year ∧ date.year ≤ 262142 ∧
      hour < 24 ∧ minute < 60 ∧ second ≤ 60 then
    -- Second 60 is second 59 with a whole second of nanoseconds more.
    let clock : Nat := hour * 3600 + minute * 60 + min second 59
    Instant.ofParts? (Calendar.dayNumber date * 86400 + clock - distance)
      (if second = 60 then nanos + 1000000000 else nanos)
  else none

/-- Reads an instant from the whole of a text. -/
def read? (s : List Char) : Option Instant := do
  let (year, s) ← readYear? s
  let s ← expect? '-' s
  let (month, s) ← readTwo? s
  let s ← expect? '-' s
  let (day, s) ← readTwo? s
  let s ← match s with
    | c :: rest => if c = 'T' ∨ c = 't' ∨ c = ' ' then some rest else none
    | [] => none
  let (hour, s) ← readTwo? s
  let s ← expect? ':' s
  let (minute, s) ← readTwo? s
  let s ← expect? ':' s
  let (second, s) ← readTwo? s
  let (nanos, s) ← readFraction? s
  let (distance, s) ← readZone? s
  if (skipBlanks s).isEmpty then
    assemble? { year, month, day } hour minute second nanos distance
  else none

end Bearer.Rfc3339
