/-
  Double precision numbers.

  A finite number is kept exactly, as a mantissa times a power of two.  A
  decimal literal stands for the nearest of these numbers, and for the one with
  an even mantissa if two are equally near.
-/

namespace Bearer

/-- A double precision number. -/
inductive Double where
  | nan
  | infinite (negative : Bool)
  /-- The mantissa, below `2^53`, times two to the exponent, which is `-1074` or more; a mantissa
  below `2^52` has the exponent `-1074`. -/
  | finite (negative : Bool) (mantissa : Nat) (exponent : Int)
  deriving DecidableEq, Repr

namespace Double

/-- The least exponent. -/
def minExponent : Int := -1074

/-- The least mantissa of a number whose exponent is not the least: `2^52`. -/
def leastNormal : Nat := 0x10000000000000

/-- The greatest exponent. -/
def maxExponent : Int := 971

/-- The integer nearest to a quotient, and the even one of two. -/
def roundHalfEven (num den : Nat) : Nat :=
  let q := num / den
  let r := num % den
  if 2 * r < den then q
  else if den < 2 * r then q + 1
  else q + q % 2

/-- `num / den` in units of two to the power `e`, as another quotient. -/
def inUnits (num den : Nat) (e : Int) : Nat × Nat :=
  (num <<< (-e).toNat, den <<< e.toNat)

/-- The exponent of the double precision numbers around a positive quotient. -/
def exponentOf (num den : Nat) : Int :=
  let e : Int := (num.log2 : Int) - den.log2
  let (n, d) := inUnits num den e
  -- The difference of the logarithms may be one too great.
  max ((if d ≤ n then e else e - 1) - 52) minExponent

/-- The number nearest to a positive quotient, if there is one in range. -/
def ofQuotient? (negative : Bool) (num den : Nat) : Option Double :=
  let e := exponentOf num den
  let (n, d) := inUnits num den e
  let m := roundHalfEven n d
  -- Rounding up may reach the next power of two.
  let (m, e) := if m = 2 * leastNormal then (leastNormal, e + 1) else (m, e)
  if maxExponent < e then none else some (.finite negative m e)

/-- The number nearest to the decimal that has these digits before a power of ten, if there is
one in range.  What is above `10^310` is out of range, and what is below `10^-330` is nearest to
zero. -/
def ofDecimal? (negative : Bool) (digits : List Char) (exponent : Int) : Option Double :=
  let n := digits.foldl (fun n c => 10 * n + (c.toNat - '0'.toNat)) 0
  if n = 0 ∨ digits.length + exponent < -330 then some (.finite negative 0 minExponent)
  else if 310 < exponent then none
  else ofQuotient? negative (n * Nat.pow 10 exponent.toNat) (Nat.pow 10 (-exponent).toNat)

/-- Whether the number is neither zero. -/
def isNonzero : Double → Bool
  | finite _ 0 _ => false
  | _ => true

/-- The 64-bit unsigned number nearest to a number, and the greater of two; the nearest in range
for numbers out of range, and zero for what is no number. -/
def toWord : Double → UInt64
  | nan => 0
  | infinite negative => if negative then 0 else .ofNat (UInt64.size - 1)
  | finite true _ _ => 0
  | finite false m e =>
    let n := if 0 ≤ e then m <<< e.toNat
      else (2 * m + 1 <<< (-e).toNat) / (2 <<< (-e).toNat)
    .ofNat (min n (UInt64.size - 1))

end Double

end Bearer
