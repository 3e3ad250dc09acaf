/-
  Numbers, truth values, dates and times in TOML.

  Such a value is one word.  Only a date may be followed by a space and a time.
-/
import Bearer.Text.Decimal
import Bearer.Text.Split
import Bearer.Time.Calendar
import Bearer.Toml.Text
import Bearer.Toml.Value

namespace Bearer.Toml

open Text.Decimal (isDigit)

/-! ## Numbers -/

/-- Digits without the underscores, each of which stands between two digits. -/
def digits? (ok : Char → Bool) (s : List Char) : Option (List Char) :=
  let groups := Text.split '_' s
  if groups.all fun g => !g.isEmpty && g.all ok then some groups.flatten else none

/-- The decimal digits of a whole number, which starts with a zero only if it is zero. -/
def whole? (s : List Char) : Option (List Char) :=
  (digits? isDigit s).filter fun
    | '0' :: _ :: _ => false
    | _ => true

/-- The value of digits in a base up to sixteen. -/
def valueIn (base : Nat) (digits : List Char) : Nat :=
  digits.foldl (fun n c => base * n + (Text.Hex.value? c).getD 0) 0

/-- Splits off a sign: whether there is one, and whether it is a minus. -/
def splitSign : List Char → (Bool × Bool) × List Char
  | '+' :: s => ((true, false), s)
  | '-' :: s => ((true, true), s)
  | s => ((false, false), s)

/-- An integer in the range of signed 64-bit words. -/
def integer? (s : List Char) : Option Int :=
  let ((isSigned, negative), s) := splitSign s
  let based (base : Nat) (s : List Char) : Option Nat :=
    -- Only decimal numbers have a sign.
    if isSigned then none
    else (digits? (fun c => (Text.Hex.value? c).any (· < base)) s).map (valueIn base)
  let n? := match s with
    | '0' :: 'x' :: s => based 16 s
    | '0' :: 'o' :: s => based 8 s
    | '0' :: 'b' :: s => based 2 s
    | s => (whole? s).map (valueIn 10)
  n?.bind fun n =>
    -- The least number has no positive counterpart.
    if negative then if n ≤ Text.Decimal.int64Bound then some (-(n : Int)) else none
    else if n < Text.Decimal.int64Bound then some n else none

/-- The exponent of a float: a sign and digits. -/
def exponent? (s : List Char) : Option Int :=
  let ((_, negative), s) := splitSign s
  (digits? isDigit s).map fun digits =>
    if negative then -(valueIn 10 digits : Int) else valueIn 10 digits

/-- A float that is written with decimals, an exponent or both. -/
def decimal? (negative : Bool) (s : List Char) : Option Double := do
  let (mantissa, exponent) ← match Text.split 'e' (s.map fun c => if c = 'E' then 'e' else c) with
    | [mantissa] => some (mantissa, none)
    | [mantissa, exponent] => some (mantissa, some (← exponent? exponent))
    | _ => none
  match Text.split '.' mantissa with
  | [whole] => Double.ofDecimal? negative (← whole? whole) (← exponent)
  | [whole, decimals] =>
    let decimals ← digits? isDigit decimals
    Double.ofDecimal? negative ((← whole? whole) ++ decimals)
      (exponent.getD 0 - decimals.length)
  | _ => none

/-- A float. -/
def float? (s : List Char) : Option Double :=
  let ((_, negative), s) := splitSign s
  if s = "inf".toList then some (.infinite negative)
  else if s = "nan".toList then some .nan
  else decimal? negative s

/-! ## Dates and times -/

/-- A number of two digits within bounds. -/
def twoDigits? (low high : Nat) (a b : Char) : Option Nat :=
  if isDigit a ∧ isDigit b then
    some (valueIn 10 [a, b]) |>.filter fun n => low ≤ n && n ≤ high
  else none

/-- Reads a date. -/
def date? : List Char → Option (List Char × List Char)
  | a :: b :: c :: d :: '-' :: e :: f :: '-' :: g :: h :: s => do
    if ([a, b, c, d].any fun c => !isDigit c) then none
    let month ← twoDigits? 1 12 e f
    let _ ← twoDigits? 1 (Calendar.daysInMonth (valueIn 10 [a, b, c, d]) month) g h
    return ([a, b, c, d, '-', e, f, '-', g, h], s)
  | _ => none

/-- The fraction of a second without its last zeros, to the nanosecond. -/
def trimFraction (digits : List Char) : List Char :=
  match ((digits.take 9).reverse.dropWhile (· = '0')).reverse with
  | [] => ['0']
  | digits => digits

/-- Reads a time of day; seconds and their fraction may be missing. -/
def time? : List Char → Option (List Char × List Char)
  | a :: b :: ':' :: c :: d :: s => do
    let _ ← twoDigits? 0 23 a b
    let _ ← twoDigits? 0 59 c d
    match s with
    | ':' :: e :: f :: s =>
      let _ ← twoDigits? 0 60 e f
      let clock := [a, b, ':', c, d, ':', e, f]
      match s with
      | '.' :: s =>
        let fraction := s.takeWhile isDigit
        if fraction.isEmpty then none
        else some (clock ++ '.' :: trimFraction fraction, s.drop fraction.length)
      | s => some (clock, s)
    | s => some ([a, b, ':', c, d], s)
  | _ => none

/-- The offset of a date and time, if there is one. -/
def offset? : List Char → Option (List Char)
  | [] => some []
  | [z] => if z = 'Z' ∨ z = 'z' then some ['Z'] else none
  | [sign, a, b, ':', c, d] => do
    let hours ← twoDigits? 0 23 a b
    let minutes ← twoDigits? 0 59 c d
    if sign = '+' ∨ (sign = '-' ∧ hours + minutes = 0) then some ['+', a, b, ':', c, d]
    else if sign = '-' then some ['-', a, b, ':', c, d]
    else none
  | _ => none

/-- A date, a time or both in standard form. -/
def datetime? (s : List Char) : Option (List Char) :=
  match date? s with
  | some (date, []) => some date
  | some (date, t :: s) =>
    if t = 'T' ∨ t = 't' ∨ t = ' ' then do
      let (time, s) ← time? s
      return date ++ 'T' :: time ++ (← offset? s)
    else none
  | none =>
    match time? s with
    | some (time, []) => some time
    | _ => none

/-! ## Words -/

/-- Whether the character can stand in a word. -/
def isWordChar (c : Char) : Bool :=
  isDigit c || ('a' ≤ c && c ≤ 'z') || ('A' ≤ c && c ≤ 'Z') || c = '+' || c = '-' || c = '_' ||
    c = '.' || c = ':'

/-- Splits off a word.  A date takes a space and the time after it along. -/
def splitWord (s : List Char) : List Char × List Char :=
  let (word, rest) := s.span isWordChar
  match date? word, rest with
  | some (_, []), ' ' :: c :: s =>
    if isDigit c then
      let (time, rest) := (c :: s).span isWordChar
      (word ++ ' ' :: time, rest)
    else (word, rest)
  | _, _ => (word, rest)

/-- The value of a word. -/
def wordValue? (word : List Char) : Option Value :=
  if word = "true".toList then some (.boolean true)
  else if word = "false".toList then some (.boolean false)
  else
    match datetime? word with
    | some t => some (.datetime (String.ofList t))
    | none =>
      match integer? word with
      | some n => some (.integer n)
      | none => (float? word).map .float

end Bearer.Toml
