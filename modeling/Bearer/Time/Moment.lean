/-
  Moments of the monotonic clock.

  Everything a cache keeps expires by this clock, which no adjustment of the
  wall clock moves.  A moment is a number of nanoseconds since an arbitrary
  start.
-/
import Bearer.Time.Duration

namespace Bearer

/-- A reading of the monotonic clock. -/
structure Moment where
  nanos : Nat
  deriving DecidableEq, Repr, Inhabited

namespace Moment

instance : LE Moment := ⟨fun a b => a.nanos ≤ b.nanos⟩
instance : LT Moment := ⟨fun a b => a.nanos < b.nanos⟩
instance (a b : Moment) : Decidable (a ≤ b) := inferInstanceAs (Decidable (a.nanos ≤ b.nanos))
instance (a b : Moment) : Decidable (a < b) := inferInstanceAs (Decidable (a.nanos < b.nanos))

theorem le_def (a b : Moment) : a ≤ b ↔ a.nanos ≤ b.nanos := Iff.rfl
theorem lt_def (a b : Moment) : a < b ↔ a.nanos < b.nanos := Iff.rfl

/-- The moment `d` later. -/
def after (m : Moment) (d : Duration) : Moment := ⟨m.nanos + d.nanos⟩

/-- The span from `a` to `b`, empty if `b` is not later. -/
def timeTo (a b : Moment) : Duration := ⟨b.nanos - a.nanos⟩

@[simp] theorem nanos_after (m : Moment) (d : Duration) : (m.after d).nanos = m.nanos + d.nanos :=
  rfl

@[simp] theorem nanos_timeTo (a b : Moment) : (a.timeTo b).nanos = b.nanos - a.nanos := rfl

end Moment

end Bearer
