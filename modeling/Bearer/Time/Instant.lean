/-
  Instants of the wall clock.

  An instant is a whole second counted from 1 January 1970 and the nanoseconds
  past it, within the years -262143 to 262142.  The last second of a minute may
  be followed by a leap second, which is written as more than a whole second of
  nanoseconds past it; only times that are read from text can be such.

  Main statements: the order is total and compares seconds first
  (`lt_iff`), and `deadline?` adds a span exactly or fails past the last year.
-/
import Bearer.Time.Calendar
import Bearer.Time.Duration

namespace Bearer

/-- A reading of the wall clock, to the nanosecond. -/
structure Instant where
  /-- Whole seconds since 1 January 1970. -/
  second : Int
  /-- Nanoseconds past that second. -/
  nanos : Nat
  second_range : -8334601228800 ≤ second ∧ second ≤ 8210266876799 := by omega
  nanos_range : nanos < 1000000000 ∨ second % 60 = 59 ∧ nanos < 2000000000 := by omega
  deriving DecidableEq, Repr

namespace Instant

/-- The start of 1 January 1970. -/
def epoch : Instant := { second := 0, nanos := 0 }

instance : Inhabited Instant := ⟨epoch⟩

/-- The instant of a second and nanoseconds, if there is one. -/
def ofParts? (second : Int) (nanos : Nat) : Option Instant :=
  if h : (-8334601228800 ≤ second ∧ second ≤ 8210266876799) ∧
      (nanos < 1000000000 ∨ second % 60 = 59 ∧ nanos < 2000000000) then
    some ⟨second, nanos, h.1, h.2⟩
  else none

/-- The instant a number of nanoseconds after 1 January 1970. -/
def ofNanos? (n : Int) : Option Instant := ofParts? (n / 1000000000) (n % 1000000000).toNat

/-- The instant a number of milliseconds after 1 January 1970. -/
def ofMillis? (n : Int) : Option Instant := ofParts? (n / 1000) ((n % 1000).toNat * 1000000)

/-- The instant a number of seconds after 1 January 1970. -/
def ofSeconds? (n : Int) : Option Instant := ofParts? n 0

/-- Nanoseconds since 1 January 1970. -/
def sinceEpoch (t : Instant) : Int := t.second * 1000000000 + t.nanos

/-- Milliseconds since 1 January 1970, rounded down. -/
def millis (t : Instant) : Int := t.second * 1000 + (t.nanos / 1000000 : Nat)

/-- A number that orders instants: seconds first, then nanoseconds. -/
def rank (t : Instant) : Int := t.second * 2000000000 + t.nanos

instance : LE Instant := ⟨fun a b => a.rank ≤ b.rank⟩
instance : LT Instant := ⟨fun a b => a.rank < b.rank⟩

theorem le_def (a b : Instant) : a ≤ b ↔ a.rank ≤ b.rank := Iff.rfl
theorem lt_def (a b : Instant) : a < b ↔ a.rank < b.rank := Iff.rfl

theorem nanos_lt (t : Instant) : t.nanos < 2000000000 := by
  have := t.nanos_range
  omega

theorem lt_iff (a b : Instant) :
    a < b ↔ a.second < b.second ∨ a.second = b.second ∧ a.nanos < b.nanos := by
  have ha := a.nanos_lt
  have hb := b.nanos_lt
  simp only [lt_def, rank]
  omega

theorem le_iff (a b : Instant) :
    a ≤ b ↔ a.second < b.second ∨ a.second = b.second ∧ a.nanos ≤ b.nanos := by
  have ha := a.nanos_lt
  have hb := b.nanos_lt
  simp only [le_def, rank]
  omega

instance (a b : Instant) : Decidable (a ≤ b) := decidable_of_iff' _ (le_iff a b)
instance (a b : Instant) : Decidable (a < b) := decidable_of_iff' _ (lt_iff a b)

/-- The later of two instants. -/
instance : Max Instant := ⟨fun a b => if a ≤ b then b else a⟩

/-- The time from `now` to `t`, if `t` lies ahead. -/
def remaining? (t now : Instant) : Option Duration :=
  if 0 < t.sinceEpoch - now.sinceEpoch then some ⟨(t.sinceEpoch - now.sinceEpoch).toNat⟩ else none

/-- The instant `d` later, if the calendar reaches it. -/
def deadline? (now : Instant) (d : Duration) : Option Instant :=
  ofNanos? (now.sinceEpoch + d.nanos)

/-! ## Order -/

theorem rank_inj {a b : Instant} (h : a.rank = b.rank) : a = b := by
  have ha := a.nanos_lt
  have hb := b.nanos_lt
  obtain ⟨sa, na, _, _⟩ := a
  obtain ⟨sb, nb, _, _⟩ := b
  simp only [rank] at h ha hb
  obtain ⟨rfl, rfl⟩ : sa = sb ∧ na = nb := by omega
  rfl

theorem not_le {a b : Instant} : ¬ a ≤ b ↔ b < a := by simp only [le_def, lt_def]; omega
theorem not_lt {a b : Instant} : ¬ a < b ↔ b ≤ a := by simp only [le_def, lt_def]; omega

theorem le_max_left (a b : Instant) : a ≤ max a b := by
  show a ≤ if a ≤ b then b else a
  split
  · assumption
  · exact Int.le_refl _

theorem le_max_right (a b : Instant) : b ≤ max a b := by
  show b ≤ if a ≤ b then b else a
  split
  · exact Int.le_refl _
  · next h => exact Int.le_of_lt (not_le.1 h)

/-! ## Spans -/

theorem ofParts?_self (t : Instant) : ofParts? t.second t.nanos = some t := by
  simp only [ofParts?]
  rw [dif_pos ⟨t.second_range, t.nanos_range⟩]

theorem sinceEpoch_of_ofNanos? {n : Int} {t : Instant} (h : ofNanos? n = some t) :
    t.sinceEpoch = n := by
  unfold ofNanos? ofParts? at h
  split at h
  · cases h
    simp only [sinceEpoch]
    omega
  · cases h

/-- A deadline lies exactly the span after its start. -/
theorem sinceEpoch_deadline {now t : Instant} {d : Duration} (h : now.deadline? d = some t) :
    t.sinceEpoch = now.sinceEpoch + d.nanos := sinceEpoch_of_ofNanos? h

end Instant

end Bearer
