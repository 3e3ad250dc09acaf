/-
  Replies of a Redis server, and what commands make of them.

  A reply has one of few shapes.  Each command wants a certain type of answer,
  and a reply of another shape, like an error, is no answer.
-/
import Bearer.Text.Decimal

namespace Bearer.Redis

/-- A reply. -/
inductive Reply where
  | nil
  | int (n : Int)
  | bulk (s : String)
  | status (s : String)
  | array (items : List Reply)
  | error (text : String)
  deriving Inhabited

namespace Reply

/-- Whether a reply is an error. -/
def isError : Reply → Bool
  | error _ => true
  | _ => false

/-- A reply as a text; a number is one. -/
def text? : Reply → Option String
  | bulk s | status s => some s
  | int n => some (Text.Decimal.intText n)
  | _ => none

/-- A reply as a text that may be missing. -/
def optionalText? : Reply → Option (Option String)
  | nil => some none
  | r => r.text?.map some

/-- A reply as a number from `-2^63` to below `2^63`. -/
def int? : Reply → Option Int
  | int n => some n
  | bulk s => Text.Decimal.readInt64? s
  | status s => if s = "OK" then none else Text.Decimal.readInt64? s
  | _ => none

/-- A reply as an unsigned number; a negative number counts down from `2^64`. -/
def word? : Reply → Option Nat
  | int n => some (n % UInt64.size).toNat
  | bulk s => (Text.Decimal.readNat UInt64.size s.toList).toOption
  | status s => if s = "OK" then none else (Text.Decimal.readNat UInt64.size s.toList).toOption
  | _ => none

/-- A reply as a truth value. -/
def bool? : Reply → Option Bool
  | nil => some false
  | int n => some (n ≠ 0)
  | bulk "1" | status "1" | status "OK" => some true
  | bulk "0" | status "0" => some false
  | _ => none

/-- A reply as nothing but success. -/
def unit? (r : Reply) : Option Unit := if r.isError then none else some ()

/-- A reply as a list of texts; a text is a list of one, and no reply an empty list. -/
def texts? : Reply → Option (List String)
  | nil => some []
  | bulk s => some [s]
  | array items => items.mapM text?
  | _ => none

/-- A reply as the next cursor and the keys of a scan. -/
def page? : Reply → Option (Nat × List String)
  | array [cursor, keys] => do some (← cursor.word?, ← keys.texts?)
  | _ => none

end Reply

end Bearer.Redis
