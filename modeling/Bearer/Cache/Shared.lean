/-
  The interface of a shared cache.

  A shared cache is a store of keys outside the process: texts with an optional
  deadline, counters, hashes and sets.  Its calls are data, so that what a cache
  asks of it can be listed, scripted, and answered by different backends.
-/
import Bearer.Error
import Bearer.Time.Moment

namespace Bearer

/-- A call to a shared cache. -/
inductive SharedCall where
  | get (key : String)
  | getWithTtl (key : String)
  | set (key value : String) (ttl : Duration)
  | delete (key : String)
  | deleteMany (keys : List String)
  | contains (key : String)
  | expire (key : String) (ttl : Duration)
  | scan (pattern : String)
  | hashSet (key field value : String)
  | hashGet (key field : String)
  | hashDelete (key field : String)
  | increment (key : String) (delta : Int)
  | decrement (key : String) (delta : Int)
  | setAdd (key member : String)
  | setRemove (key member : String)
  | setContains (key member : String)
  deriving DecidableEq, Repr

/-- What a call answers if it succeeds. -/
abbrev SharedCall.Answer : SharedCall → Type
  | get .. | hashGet .. => Option String
  | getWithTtl .. => Option (String × Option Duration)
  | set .. | hashSet .. => Unit
  | delete .. | contains .. | expire .. | hashDelete .. | setAdd .. | setRemove .. |
    setContains .. => Bool
  | deleteMany .. => Nat
  | scan .. => List String
  | increment .. | decrement .. => Int

/-- What a call answers. -/
abbrev SharedCall.Reply (c : SharedCall) : Type := Except CacheError c.Answer

/-- A backend of the shared cache: it answers a call made at a moment, and says at which moment
the answer is there. -/
class SharedBackend (ρ : Type) where
  perform : (c : SharedCall) → Moment → ρ → c.Reply × Moment × ρ

end Bearer
