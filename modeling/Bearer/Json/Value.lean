/-
  JSON values.

  A number is kept as it is written, because whether it is an integer is a
  question of form (`1e0` is none) and because a number that nobody reads may
  be of any size.  A string may stand for no text: it can hold half of a
  surrogate pair, or bytes that are no characters.  Such a string is harmless
  where it is ignored and a fault where a text is wanted.
-/
import Bearer.Text.Decimal

namespace Bearer.Json

/-- A JSON value. -/
inductive Value where
  | null
  | bool (b : Bool)
  /-- A number as it is written. -/
  | number (literal : List Char)
  /-- A string, or nothing if it stands for no text. -/
  | string (text : Option String)
  | array (items : List Value)
  /-- The members of an object in the order in which they are written. -/
  | object (members : List (Option String × Value))
  deriving Inhabited

namespace Value

/-- The text of a string. -/
def text (s : String) : Value := string (some s)

/-- A number without decimals. -/
def int (n : Int) : Value := number (Text.Decimal.writeInt n)

/-- A natural number. -/
def nat (n : Nat) : Value := number (Text.Decimal.writeNat n)

/-- An object whose member names are texts. -/
def record (members : List (String × Value)) : Value :=
  object (members.map fun (name, value) => (some name, value))

/-- The text of a value, if it is a string that has one. -/
def text? : Value → Option String
  | string s => s
  | _ => none

/-- The integer that a literal writes: digits after an optional minus sign, but not `-0`. -/
def literalInt? : List Char → Option Int
  | '-' :: digits =>
    match Text.Decimal.readDigits (Nat.pow 10 digits.length) 0 digits with
    | .ok 0 => none
    | .ok n => some (-(n : Int))
    | .error _ => none
  | digits =>
    match Text.Decimal.readDigits (Nat.pow 10 digits.length) 0 digits with
    | .ok n => some n
    | .error _ => none

/-- The integer that a value is written as. -/
def int? : Value → Option Int
  | number literal => literalInt? literal
  | _ => none

/-- The integer of a value, if it lies from `low` to below `high`. -/
def intIn? (low high : Int) (v : Value) : Option Int :=
  v.int?.filter fun n => low ≤ n ∧ n < high

/-- The 64-bit unsigned number of a value. -/
def word? (v : Value) : Option UInt64 := (v.intIn? 0 UInt64.size).map fun n => UInt64.ofNat n.toNat

/-- The 64-bit signed number of a value. -/
def int64? (v : Value) : Option Int := v.intIn? (-Text.Decimal.int64Bound) Text.Decimal.int64Bound

/-- The values of the named members, in the order of the names.  An object may lack a member,
and may have others, but must not name one twice nor have a name that is no text.  An array
stands for the record whose members it lists. -/
def members? (names : List String) : Value → Option (List (Option Value))
  | object members =>
    if members.any fun (name, _) => name.isNone then none
    else names.mapM fun name =>
      match members.filter fun (other, _) => other = some name with
      | [] => some none
      | [(_, value)] => some (some value)
      | _ => none
  | array items => if items.length = names.length then some (items.map some) else none
  | _ => none

end Value

end Bearer.Json
