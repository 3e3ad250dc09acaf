/-
  TOML values, and how a table grows.

  A table can be written in several pieces, and what may be added to it depends
  on how it came about: a header opens a table once, dotted keys add only to
  tables that dotted keys made, and an inline table is complete.  No key is ever
  given two values.
-/
import Bearer.Number.Double

namespace Bearer.Toml

/-- How a table came about. -/
inductive Origin where
  /-- By a header of its own, or as the document. -/
  | header
  /-- By a header of a table inside it. -/
  | implied
  /-- By a dotted key. -/
  | dotted
  /-- By an inline table. -/
  | inline
  deriving DecidableEq, Repr

/-- A TOML value. -/
inductive Value where
  | text (s : String)
  | integer (n : Int)
  | float (x : Double)
  | boolean (b : Bool)
  /-- A date, a time or both, in its standard form. -/
  | datetime (s : String)
  | array (items : List Value)
  | table (origin : Origin) (members : List (String × Value))
  /-- Tables that were written under one header each. -/
  | tables (rows : List (List (String × Value)))
  deriving Inhabited

/-- The members of a table. -/
abbrev Members := List (String × Value)

/-- A key, which may name a member of a member: the names on the way, and the last name. -/
structure Key where
  path : List String
  name : String
  deriving DecidableEq, Repr

/-- Replaces the value of a member, or adds the member. -/
def Members.alter (name : String) (f : Option Value → Option Value) : Members → Option Members
  | [] => (f none).map fun v => [(name, v)]
  | (other, v) :: ms =>
    if other = name then (f (some v)).map fun v => (name, v) :: ms
    else (Members.alter name f ms).map ((other, v) :: ·)

/-- Changes the table at the end of a path.  `dotted` tells whether the path is that of a dotted
key or of a header; in an array of tables, it leads to the last one. -/
def Members.modifyAt (dotted : Bool) (f : Origin → Members → Option Members) :
    List String → Origin → Members → Option Members
  | [], origin, ms => f origin ms
  | name :: path, _, ms => ms.alter name fun
    | none =>
      let origin := if dotted then Origin.dotted else .implied
      (modifyAt dotted f path origin []).map (.table origin)
    | some (.table .inline _) => none
    | some (.table origin inner) =>
      -- A dotted key adds nothing to a table that has a header of its own.
      if dotted ∧ origin = .header then none
      else (modifyAt dotted f path origin inner).map (.table origin)
    | some (.tables rows) => do
      let last ← rows.getLast?
      let last ← modifyAt dotted f path .header last
      return .tables (rows.dropLast ++ [last])
    | some _ => none

/-- Gives a key of a table a value. -/
def Members.insert (key : Key) (v : Value) (origin : Origin) (ms : Members) : Option Members :=
  ms.modifyAt true (fun origin ms =>
    if (origin == .dotted) == key.path.isEmpty then none
    else ms.alter key.name fun old => if old.isSome then none else some v) key.path origin

/-- The table of some keys and values. -/
def Members.ofList? (entries : List (Key × Value)) : Option Members :=
  entries.foldlM (fun ms (key, v) => ms.insert key v .header) []

/-- Opens the table of a header. -/
def Members.openTable (key : Key) (ms : Members) : Option Members :=
  ms.modifyAt false (fun _ ms => ms.alter key.name fun
    | none => some (.table .header [])
    | some (.table .implied inner) => some (.table .header inner)
    | some _ => none) key.path .header

/-- Opens another table of an array of tables. -/
def Members.appendTable (key : Key) (ms : Members) : Option Members :=
  ms.modifyAt false (fun _ ms => ms.alter key.name fun
    | none => some (.tables [[]])
    | some (.tables rows) => some (.tables (rows ++ [[]]))
    | some _ => none) key.path .header

end Bearer.Toml
