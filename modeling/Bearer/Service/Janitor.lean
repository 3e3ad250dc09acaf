/-
  The janitor.

  Removes what has expired from the stores of record: first sessions, then
  revocations.
-/
import Bearer.Service.Blacklist
import Bearer.Service.Sessions

namespace Bearer

/-- How many rows a run of the janitor removed. -/
structure PurgeReport where
  sessions : Nat
  revocations : Nat
  deriving DecidableEq, Repr

/-- One run of the janitor; it ends at the first error. -/
def Janitor.tick : Service PurgeReport := do
  let sessions ← Sessions.purge
  let revocations ← Blacklist.purge
  return { sessions, revocations }

end Bearer
