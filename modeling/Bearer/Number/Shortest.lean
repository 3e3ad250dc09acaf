/-
  The shortest decimal text of a double precision number.

  Among the decimals that read back as the number, the text is one with the
  fewest digits, and of these the nearest; a decimal half way between two goes
  up.  It is written without an exponent, and without a point if it is whole.
-/
import Bearer.Number.Double
import Bearer.Text.Decimal

namespace Bearer.Double

/-- The decimals that read back as a number lie between two bounds, all in units of two to the
power `unit`. -/
structure Interval where
  low : Nat
  value : Nat
  high : Nat
  unit : Int
  /-- Whether the bounds themselves read back as the number. -/
  closed : Bool

/-- The interval of a positive number.  The gap below a power of two is half the gap above. -/
def Interval.of (m : Nat) (e : Int) : Interval where
  low := if m = leastNormal ∧ minExponent < e then 4 * m - 1 else 4 * m - 2
  value := 4 * m
  high := 4 * m + 2
  unit := e - 2
  closed := m % 2 = 0

/-- The multiple of `10^k` that stands for the number, if one does: of the two around the number,
the nearer one in the interval, and the upper of two equally near. -/
def Interval.onGrid? (i : Interval) (k : Int) : Option Nat :=
  let num := Nat.pow 10 (-k).toNat <<< i.unit.toNat
  let den := Nat.pow 10 k.toNat <<< (-i.unit).toNat
  let inside (n : Nat) : Bool :=
    if i.closed then i.low * num ≤ n * den && n * den ≤ i.high * num
    else i.low * num < n * den && n * den < i.high * num
  let below := i.value * num / den
  -- Half way counts as nearer to the upper one.
  let upperNearer := den ≤ 2 * (i.value * num % den)
  let first := if upperNearer then below + 1 else below
  let second := if upperNearer then below else below + 1
  if inside first then some first else if inside second then some second else none

/-- The first grid with a decimal in the interval, from `10^k` on to finer ones. -/
def Interval.search (i : Interval) : Nat → Int → Nat × Int
  | 0, k => (i.value, k)
  | fuel + 1, k =>
    match i.onGrid? k with
    | some n => (n, k)
    | none => i.search fuel (k - 1)

/-- The digits of the shortest decimal of a positive number, and the power of ten that they
count.  The number is below `10^309`, and seventeen digits always do. -/
def shortest (m : Nat) (e : Int) : Nat × Int := (Interval.of m e).search 660 309

/-- A multiple of a power of ten in positional notation. -/
def positional (n : Nat) (k : Int) : List Char :=
  let digits := Text.Decimal.writeNat n
  let places := (-k).toNat
  if 0 ≤ k then digits ++ List.replicate k.toNat '0'
  else if places < digits.length then
    digits.take (digits.length - places) ++ '.' :: digits.drop (digits.length - places)
  else '0' :: '.' :: (List.replicate (places - digits.length) '0' ++ digits)

/-- A minus sign, if there is one. -/
def signed (negative : Bool) (s : List Char) : List Char := if negative then '-' :: s else s

/-- The text of a number. -/
def text : Double → String
  | nan => "NaN"
  | infinite negative => String.ofList (signed negative ['i', 'n', 'f'])
  | finite negative 0 _ => String.ofList (signed negative ['0'])
  | finite negative m e =>
    let (n, k) := shortest m e
    String.ofList (signed negative (positional n k))

end Bearer.Double
