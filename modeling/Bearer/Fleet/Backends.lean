/-
  The backends that a fleet can be set up with.

  The stores of record are kept in memory or in a database, the shared cache in
  memory or on a Redis server; which, is decided when the program starts.
-/
import Bearer.Cache.SharedMemory
import Bearer.Redis.Store
import Bearer.Sql.Database
import Bearer.Store.Origin

namespace Bearer

/-- Stores of record of either kind. -/
inductive Records where
  | memory (s : MemoryOrigin)
  | database (s : Sql.Database)

namespace Records

/-- Applies an operation to the stores, whichever they are. -/
def apply {α : Type} (r : Records) (onMemory : MemoryOrigin → α × MemoryOrigin)
    (onDatabase : Sql.Database → α × Sql.Database) : α × Records :=
  match r with
  | memory s =>
    let (a, s) := onMemory s
    (a, memory s)
  | database s =>
    let (a, s) := onDatabase s
    (a, database s)

instance : Origin Records where
  session c now r := r.apply (Origin.session c now) (Origin.session c now)
  revocation c now r := r.apply (Origin.revocation c now) (Origin.revocation c now)
  user c now r := r.apply (Origin.user c now) (Origin.user c now)

end Records

/-- A shared cache of either kind. -/
inductive SharedStore where
  | memory (m : SharedMemory)
  | redis (s : Redis.Store)

instance : SharedBackend SharedStore where
  perform c now
    | .memory m =>
      let (reply, now, m) := SharedBackend.perform c now m
      (reply, now, .memory m)
    | .redis s =>
      let (reply, now, s) := SharedBackend.perform c now s
      (reply, now, .redis s)

end Bearer
