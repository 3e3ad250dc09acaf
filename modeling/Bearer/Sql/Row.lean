/-
  Statements, replies and rows.

  A statement is a text with parameters.  A reply is an error, a count of rows
  written, or rows with named and typed columns.  A field is read from a row by
  the name of its column, and must not be null unless it may be missing.
-/
import Bearer.Sql.Fault
import Bearer.User

namespace Bearer.Sql

/-- A parameter of a statement. -/
inductive Param where
  | null
  | int (n : Int)
  | text (s : String)
  | instant (t : Instant)
  /-- The hash of a password, which must not be shown whole. -/
  | passwordHash (s : String)
  deriving DecidableEq, Repr

/-- A parameter that may be missing. -/
def Param.ofOption {α : Type} (f : α → Param) : Option α → Param
  | some a => f a
  | none => null

/-- A statement. -/
structure Statement where
  text : String
  params : List Param
  deriving DecidableEq, Repr

/-- The year of an instant. -/
def year (t : Instant) : Int := (Calendar.date (t.second / 86400)).year

/-- Whether a parameter can be sent: a year is sent as an unsigned number of 16 bits. -/
def Param.isSendable : Param → Bool
  | instant t => 0 ≤ year t && year t < UInt16.size
  | _ => true

/-- An instant as it is shown among parameters, cut to microseconds. -/
def instantText (t : Instant) : String :=
  let date := Calendar.date (t.second / 86400)
  let inDay := (t.second % 86400).toNat
  let digits := Text.Decimal.writePadded
  String.ofList (digits 4 date.year.toNat ++ '-' :: digits 2 date.month ++
    '-' :: digits 2 date.day ++ ' ' :: digits 2 (inDay / 3600) ++
    ':' :: digits 2 (inDay / 60 % 60) ++ ':' :: digits 2 (inDay % 60) ++
    '.' :: digits 6 (t.nanos / 1000))

/-- A cell of a row. -/
inductive Cell where
  | null
  /-- An unsigned number of 64 bits. -/
  | word (n : Nat)
  /-- A signed number of 64 bits. -/
  | int (n : Int)
  /-- A number of one digit, which stands for a truth value. -/
  | flag (n : Int)
  | text (s : String)
  | datetime (year month day hour minute second micros : Nat)
  deriving DecidableEq, Repr

/-- A row: its columns by name. -/
abbrev Row := List (String × Cell)

/-- A reply to a statement. -/
inductive Reply where
  | written (affected lastId : Nat)
  | error (code : Nat) (state text : String)
  | rows (rows : List Row)
  deriving Inhabited

namespace Cell

/-- A cell as an unsigned number. -/
def word? : Cell → Option UInt64
  | word n => if n < UInt64.size then some (UInt64.ofNat n) else none
  | _ => none

/-- A cell as a signed number. -/
def int? : Cell → Option Int
  | int n | flag n => some n
  | _ => none

/-- A cell as a truth value: a number of at most eight bits that is not zero. -/
def bool? : Cell → Option Bool
  | int n | flag n => if -128 ≤ n ∧ n < 128 then some (n ≠ 0) else none
  | word n =>
    if n < 128 ∨ UInt64.size - 128 ≤ n ∧ n < UInt64.size then some (n ≠ 0) else none
  | _ => none

/-- A cell as a text. -/
def text? : Cell → Option String
  | text s => some s
  | _ => none

/-- A cell as an instant. -/
def instant? : Cell → Option Instant
  | datetime year month day hour minute second micros =>
    let date : Calendar.Date := ⟨year, month, day⟩
    if date.Valid ∧ hour < 24 ∧ minute < 60 ∧ second < 60 then
      Instant.ofParts?
        (Calendar.dayNumber date * 86400 + (hour * 3600 + minute * 60 + second : Nat))
        (micros * 1000)
    else none
  | _ => none

end Cell

namespace Row

/-- The cell of a column. -/
def cell (row : Row) (name : String) : Except Fault Cell :=
  match row.find? fun c => c.1 = name with
  | some (_, cell) => .ok cell
  | none => .error (.columnMissing name)

/-- A field that must be there. -/
def get {α : Type} (row : Row) (name : String) (read : Cell → Option α) : Except Fault α := do
  match read (← row.cell name) with
  | some a => return a
  | none => throw (.columnUnreadable name)

/-- A field that may be null. -/
def get? {α : Type} (row : Row) (name : String) (read : Cell → Option α) :
    Except Fault (Option α) := do
  match ← row.cell name with
  | .null => return none
  | cell =>
    match read cell with
    | some a => return some a
    | none => throw (.columnUnreadable name)

end Row

end Bearer.Sql
