/-
  Why a statement, or the reading of a row, fails.
-/
import Bearer.Text.Decimal

namespace Bearer.Sql

/-- Why the database gave no usable answer. -/
inductive Fault where
  /-- The server answered with an error. -/
  | server (code : Nat) (state text : String)
  /-- The row has no column of this name. -/
  | columnMissing (name : String)
  /-- The column holds a value that cannot be read as the field it stands for. -/
  | columnUnreadable (name : String)
  /-- A result that must have a row has none. -/
  | noRow
  /-- A parameter cannot be written. -/
  | parameter
  /-- The connection pool is closed. -/
  | closed
  deriving DecidableEq, Repr

/-- The number by which the server reports a duplicate key. -/
def duplicateKey : Nat := 1062

/-- Whether the statement ran into a duplicate key. -/
def Fault.isDuplicateKey : Fault → Bool
  | server code _ _ => code == duplicateKey
  | _ => false

/-- The words for a fault. -/
def Fault.message : Fault → String
  | server code state text =>
    "error returned from database: " ++ Text.Decimal.natText code ++ " (" ++ state ++ "): " ++ text
  | columnMissing name => "no column found for name: " ++ name
  | columnUnreadable name => "error occurred while decoding column \"" ++ name ++ "\""
  | noRow => "no rows returned by a query that expected to return at least one row"
  | parameter => "error occurred while encoding a value"
  | closed => "attempted to acquire a connection on a closed pool"

end Bearer.Sql
