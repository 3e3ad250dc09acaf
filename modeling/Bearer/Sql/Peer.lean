/-
  A database that answers from a script.

  Statements are recorded as they are sent, and each takes the next reply; when
  none is left, the server answers with an error.  A statement with a parameter
  that cannot be sent, or on a closed pool, is not sent at all.
-/
import Bearer.Sql.Statement

namespace Bearer.Sql

/-- A database behind a pool of connections. -/
structure Peer where
  replies : List Reply
  sent : List Statement
  closed : Bool
  deriving Inhabited

namespace Peer

/-- The number of the error that stands for no reply at all. -/
def unknownError : Nat := 1105

/-- Sends a statement. -/
def send (p : Peer) (s : Statement) : Except Fault Reply × Peer :=
  if p.closed then (.error .closed, p)
  -- Neither this nor a closed pool uses up a reply.
  else if !s.params.all Param.isSendable then (.error .parameter, p)
  else
    let p := { p with sent := p.sent ++ [s] }
    match p.replies with
    | [] => (.error (.server unknownError "HY000" "unknown error"), p)
    | .error code state text :: rest =>
      (.error (.server code state text), { p with replies := rest })
    | reply :: rest => (.ok reply, { p with replies := rest })

/-- The number of rows that a statement writes, and the last id that it gives. -/
def execute (p : Peer) (s : Statement) : Except Fault (Nat × Nat) × Peer :=
  let (reply, p) := p.send s
  (reply.map fun
    | .written affected lastId => (affected, lastId)
    | _ => (0, 0), p)

/-- The first row of the result of a statement. -/
def fetch (p : Peer) (s : Statement) : Except Fault (Option Row) × Peer :=
  let (reply, p) := p.send s
  (reply.map fun
    | .rows rows => rows.head?
    | _ => none, p)

end Peer

/-- A database; operations fail with its faults. -/
abbrev Query := ExceptT Fault (StateM Peer)

/-- Executes a statement. -/
def execute (s : Statement) : Query (Nat × Nat) := fun p => p.execute s

/-- The first row of the result of a statement. -/
def fetch (s : Statement) : Query (Option Row) := fun p => p.fetch s

/-- Creates the tables that are missing. -/
def migrate : Query Unit := Statement.createTables.forM fun s => do
  let _ ← execute s

/-- Whether the database answers a query with a number. -/
def greet : Query Unit := do
  let some row ← fetch .greeting | throw .noRow
  match row with
  | (name, cell) :: _ => if cell.int?.isNone then throw (.columnUnreadable name)
  | [] => throw (.columnMissing "0")

end Bearer.Sql
