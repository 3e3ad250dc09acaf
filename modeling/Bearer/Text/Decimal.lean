/-
  Natural numbers and integers in decimal.

  Writing uses the fewest digits.  Reading an unsigned number allows one plus
  sign and leading zeros and tells three faults apart: no character at all, a
  character that is no digit, and a value past the bound.  The fault that a
  reader going from left to right meets first wins.

  Main statements: `readDigits_writeNat`, what is written reads back, and
  `foldl_padded`, digits in any base make up their number again.
-/

namespace Bearer.Text.Decimal

/-- The value of a decimal digit. -/
def digit? (c : Char) : Option Nat :=
  if '0' ≤ c ∧ c ≤ '9' then some (c.toNat - '0'.toNat) else none

/-- Whether the character is one of the ten decimal digits. -/
def isDigit (c : Char) : Bool := (digit? c).isSome

/-- The decimal digits of a number, most significant first. -/
def writeNat (n : Nat) : List Char := Nat.toDigits 10 n

/-- The decimal digits of a number as a string. -/
def natText (n : Nat) : String := String.ofList (writeNat n)

/-- An integer in decimal, with a minus sign if it is negative. -/
def writeInt : Int → List Char
  | .ofNat n => writeNat n
  | .negSucc n => '-' :: writeNat (n + 1)

/-- An integer in decimal as a string. -/
def intText (n : Int) : String := String.ofList (writeInt n)

/-- The number in decimal, padded with zeros on the left to at least `width` digits. -/
def writePadded (width n : Nat) : List Char :=
  let digits := writeNat n
  List.replicate (width - digits.length) '0' ++ digits

/-- Why a text is no bounded number. -/
inductive Fault where
  | empty
  | invalidDigit
  | tooLarge
  | tooSmall
  deriving DecidableEq, Repr

/-- The words for a fault. -/
def Fault.message : Fault → String
  | .empty => "cannot parse integer from empty string"
  | .invalidDigit => "invalid digit found in string"
  | .tooLarge => "number too large to fit in target type"
  | .tooSmall => "number too small to fit in target type"

/-- Reads digits from the left; `acc` is the value so far and `bound` the first value too large. -/
def readDigits (bound acc : Nat) : List Char → Except Fault Nat
  | [] => .ok acc
  | c :: rest =>
    match digit? c with
    | none => .error .invalidDigit
    | some d => if 10 * acc + d < bound then readDigits bound (10 * acc + d) rest
                else .error .tooLarge

/-- Reads a number below `bound`, with an optional plus sign. -/
def readNat (bound : Nat) : List Char → Except Fault Nat
  | [] => .error .empty
  -- A sign alone is a character that is no digit.
  | ['+'] => .error .invalidDigit
  | '+' :: rest => readDigits bound 0 rest
  | text => readDigits bound 0 text

/-- Reads a 64-bit unsigned number. -/
def readWord (s : String) : Except Fault UInt64 :=
  (readNat UInt64.size s.toList).map UInt64.ofNat

/-- The first number past the signed 64-bit words: `2^63`. -/
def int64Bound : Nat := 0x8000000000000000

/-- Reads a signed number in the range of 64-bit words, with an optional sign. -/
def readInt64? (s : String) : Option Int :=
  match s.toList with
  | '-' :: rest =>
    match rest with
    | [] => none
    | c :: _ => if isDigit c then
        match readDigits (int64Bound + 1) 0 rest with
        | .ok n => some (-(n : Int))
        | .error _ => none
      else none
  | text =>
    match readNat int64Bound text with
    | .ok n => some n
    | .error _ => none

/-! ## What is written reads back -/

theorem digit?_digitChar {d : Nat} (h : d < 10) : digit? (Nat.digitChar d) = some d := by
  have : ∀ d : Fin 10, digit? (Nat.digitChar d.val) = some d.val := by decide
  exact this ⟨d, h⟩

/-- Reading digits after digits. -/
theorem readDigits_append (bound acc : Nat) (xs ys : List Char) :
    readDigits bound acc (xs ++ ys) =
      (readDigits bound acc xs).bind fun n => readDigits bound n ys := by
  induction xs generalizing acc with
  | nil => rfl
  | cons c xs ih =>
    simp only [List.cons_append, readDigits]
    cases digit? c with
    | none => rfl
    | some d => by_cases h : 10 * acc + d < bound <;> simp [h, ih, Except.bind]

theorem readDigits_writeNat {bound n : Nat} (h : n < bound) :
    readDigits bound 0 (writeNat n) = .ok n := by
  induction n using Nat.strongRecOn with
  | ind n ih =>
    by_cases hn : n < 10
    · rw [writeNat, Nat.toDigits_of_lt_base hn]
      simp [readDigits, digit?_digitChar hn, h]
    · have hlt : n / 10 < n := Nat.div_lt_self (by omega) (by decide)
      have hsplit : writeNat n = writeNat (n / 10) ++ [Nat.digitChar (n % 10)] := by
        rw [writeNat, writeNat, Nat.toDigits_of_base_le (by decide) (by omega)]
      rw [hsplit, readDigits_append, ih _ hlt (by omega)]
      have hd : n % 10 < 10 := Nat.mod_lt _ (by decide)
      have hsum : 10 * (n / 10) + n % 10 = n := Nat.div_add_mod n 10
      simp [Except.bind, readDigits, digit?_digitChar hd, hsum, h]

/-! ## Values of digits -/

section

variable {b : Nat} {value? : Char → Option Nat}

/-- The digits of a number in some base make it up again, for whoever knows their values. -/
theorem foldl_toDigits (hb : 1 < b)
    (hvalue : ∀ {d : Nat}, d < b → value? (Nat.digitChar d) = some d) (n : Nat) :
    (Nat.toDigits b n).foldl (fun n c => b * n + (value? c).getD 0) 0 = n := by
  -- By induction on the number without its last digit.
  induction n using Nat.strongRecOn with
  | ind n ih =>
    by_cases hn : n < b
    · rw [Nat.toDigits_of_lt_base hn, List.foldl_cons, List.foldl_nil, hvalue hn,
        Option.getD_some, Nat.mul_zero, Nat.zero_add]
    · have hlast : n % b < b := Nat.mod_lt _ (by omega)
      have hrest := ih (n / b) (Nat.div_lt_self (by omega) hb)
      rw [Nat.toDigits_of_base_le hb (by omega), List.foldl_append, hrest, List.foldl_cons,
        List.foldl_nil, hvalue hlast, Option.getD_some, Nat.div_add_mod]

/-- Zeros on the left do not count. -/
theorem foldl_padded (hb : 1 < b)
    (hvalue : ∀ {d : Nat}, d < b → value? (Nat.digitChar d) = some d) (k n : Nat) :
    (List.replicate k '0' ++ Nat.toDigits b n).foldl (fun n c => b * n + (value? c).getD 0) 0 =
      n := by
  have hzero : value? '0' = some 0 := hvalue (d := 0) (by omega)
  induction k with
  | zero => exact foldl_toDigits hb hvalue n
  | succ k ih =>
    rw [List.replicate_succ, List.cons_append, List.foldl_cons, hzero, Option.getD_some,
      Nat.mul_zero]
    exact ih

end

end Bearer.Text.Decimal
