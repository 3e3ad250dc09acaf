/-
  Timers.

  A timer is due at a moment and then again after an interval.  When it fires
  late, what counts for the next time depends on who waits: a sweep keeps its
  rhythm if it is hardly late, a janitor rests for the whole interval.
-/
import Bearer.Time.Moment

namespace Bearer

/-- Something that is due again and again. -/
structure Timer where
  due : Moment
  interval : Duration
  deriving DecidableEq, Repr

namespace Timer

/-- The timer that is due for the first time one interval from now. -/
def start (now : Moment) (interval : Duration) : Timer := ⟨now.after interval, interval⟩

/-- Whether the timer is due. -/
def isDue (t : Timer) (now : Moment) : Bool := t.due ≤ now

/-- How late a timer may fire and keep its rhythm. -/
def tolerance : Duration := .ofMillis 5

/-- The timer after it fired: due one interval after it was due, or after now if it was late. -/
def keepRhythm (t : Timer) (now : Moment) : Timer :=
  if now ≤ t.due.after tolerance then { t with due := t.due.after t.interval }
  else { t with due := now.after t.interval }

/-- The timer after it fired: due one interval from now. -/
def rest (t : Timer) (now : Moment) : Timer := { t with due := now.after t.interval }

end Timer

/-- The shortest interval between sweeps. -/
def shortestSweep : Duration := .ofMillis 10

end Bearer
