/-
  Readings of the wall clock.

  A clock that is set to a plain instant, one outside a leap second, and moved
  forward by spans only ever shows plain instants.  Tokens state instants in
  whole milliseconds and whole seconds, rounded down.

  Main statements: `plain_deadline`, `second_lt_deadline`, `deadline_lt_deadline`,
  `ofMillis?_eq_floorMilli` and `ofSeconds?_second`.
-/
import Bearer.Time.Instant

namespace Bearer.Instant

variable {t now later : Instant} {d : Duration}

theorem le_trans {a b c : Instant} (h : a ≤ b) (h' : b ≤ c) : a ≤ c := Int.le_trans h h'

theorem le_refl (t : Instant) : t ≤ t := Int.le_refl _

theorem lt_of_lt_of_le {a b c : Instant} (h : a < b) (h' : b ≤ c) : a < c :=
  Int.lt_of_lt_of_le h h'

theorem lt_of_le_of_lt {a b c : Instant} (h : a ≤ b) (h' : b < c) : a < c :=
  Int.lt_of_le_of_lt h h'

theorem le_of_lt {a b : Instant} (h : a < b) : a ≤ b := Int.le_of_lt h

theorem le_max {a b c : Instant} (h : a ≤ b ∨ a ≤ c) : a ≤ max b c :=
  h.elim (fun h => le_trans h (le_max_left b c)) fun h => le_trans h (le_max_right b c)

theorem max_le {a b c : Instant} (h : a ≤ c) (h' : b ≤ c) : max a b ≤ c := by
  show (if a ≤ b then b else a) ≤ c
  split
  · exact h'
  · exact h

theorem max_lt {a b c : Instant} (h : a < c) (h' : b < c) : max a b < c := by
  show (if a ≤ b then b else a) < c
  split
  · exact h'
  · exact h

theorem second_le (h : now ≤ later) : now.second ≤ later.second := by
  rw [le_iff] at h
  omega

/-! ## Outside of leap seconds -/

/-- Whether a time lies outside of a leap second. -/
def Plain (t : Instant) : Prop := t.nanos < 1000000000

instance (t : Instant) : Decidable t.Plain := inferInstanceAs (Decidable (t.nanos < 1000000000))

theorem plain_of_ofNanos? {n : Int} (h : ofNanos? n = some t) : t.Plain := by
  unfold ofNanos? ofParts? at h
  split at h
  · have heq := congrArg nanos (Option.some.inj h)
    unfold Plain
    simp only at heq
    omega
  · cases h

/-- A deadline is plain, whatever its start is. -/
theorem plain_deadline (h : now.deadline? d = some later) : later.Plain := plain_of_ofNanos? h

/-- A deadline is not before its start, be that in a leap second. -/
theorem le_deadline (h : now.deadline? d = some later) : now ≤ later := by
  have hlater := plain_deadline h
  have hsum := sinceEpoch_deadline h
  unfold Plain at hlater
  simp only [sinceEpoch] at hsum
  rw [le_iff]
  omega

/-- A calendar that reaches a deadline reaches the nearer ones, too. -/
theorem deadline?_isSome_of_le {d' : Duration} (hle : d ≤ d')
    (h : (now.deadline? d').isSome) : (now.deadline? d).isSome := by
  obtain ⟨last, hlast⟩ := Option.isSome_iff_exists.1 h
  have hsum := sinceEpoch_deadline hlast
  have hplain := plain_deadline hlast
  have hfirst := now.second_range
  have hrange := last.second_range
  unfold Plain at hplain
  rw [Duration.le_def] at hle
  simp only [sinceEpoch] at hsum
  rw [deadline?, ofNanos?, ofParts?, sinceEpoch, dif_pos (by omega)]
  rfl

/-- Of two deadlines with one start, the one with the shorter span comes first. -/
theorem deadline_lt_deadline {t' : Instant} {d' : Duration} (hlt : d < d')
    (h : now.deadline? d = some t) (h' : now.deadline? d' = some t') : t < t' := by
  have ht := plain_deadline h
  have ht' := plain_deadline h'
  have hsum := sinceEpoch_deadline h
  have hsum' := sinceEpoch_deadline h'
  unfold Plain at ht ht'
  rw [Duration.lt_def] at hlt
  simp only [sinceEpoch] at hsum hsum'
  rw [lt_iff]
  omega

/-- A deadline comes after a plain start. -/
theorem lt_deadline (hp : now.Plain) (hpos : d.isZero = false) (h : now.deadline? d = some t) :
    now < t := by
  have ht := plain_deadline h
  have hsum := sinceEpoch_deadline h
  unfold Plain at hp ht
  simp only [Duration.isZero, beq_eq_false_iff_ne] at hpos
  simp only [sinceEpoch] at hsum
  rw [lt_iff]
  omega

/-- What remains until a deadline is the whole span at first. -/
theorem remaining?_deadline (h : now.deadline? d = some t) :
    t.remaining? now = if d.isZero then none else some d := by
  rw [remaining?, sinceEpoch_deadline h, Duration.isZero]
  by_cases hd : d.nanos = 0
  · simp [hd]
  · rw [if_pos (by omega), if_neg (by simpa using hd)]
    refine congrArg some (congrArg Duration.mk ?_)
    omega

/-- A deadline that starts no earlier and lies at least a second further off falls into a later
second. -/
theorem second_lt_deadline {start t t' : Instant} {d' : Duration} (hp : now.Plain)
    (hstart : now ≤ start) (h : now.deadline? d = some t) (h' : start.deadline? d' = some t')
    (hd : d.nanos + 1000000000 ≤ d'.nanos) : t.second < t'.second := by
  have ht := plain_deadline h
  have ht' := plain_deadline h'
  have hsum := sinceEpoch_deadline h
  have hsum' := sinceEpoch_deadline h'
  unfold Plain at hp ht ht'
  rw [le_iff] at hstart
  simp only [sinceEpoch] at hsum hsum'
  omega

/-! ## Whole milliseconds and seconds -/

/-- The start of the millisecond that a time lies in. -/
def floorMilli (t : Instant) : Instant where
  second := t.second
  nanos := t.nanos / 1000000 * 1000000
  second_range := t.second_range
  nanos_range := by
    have hrange := t.nanos_range
    omega

/-- The start of the second that a time lies in. -/
def floorSecond (t : Instant) : Instant where
  second := t.second
  nanos := 0
  second_range := t.second_range

/-- A plain time in whole milliseconds reads back as the start of its millisecond. -/
theorem ofMillis?_eq_floorMilli (h : t.Plain) : ofMillis? t.millis = some t.floorMilli := by
  unfold Plain at h
  have hrange := t.second_range
  -- Milliseconds split into the second and what is left of it.
  have hsecond : t.millis / 1000 = t.second := by
    simp only [millis]
    omega
  have hnanos : (t.millis % 1000).toNat * 1000000 = t.nanos / 1000000 * 1000000 := by
    simp only [millis]
    omega
  rw [ofMillis?, hsecond, hnanos, ofParts?, dif_pos ⟨hrange, Or.inl (by omega)⟩]
  rfl

/-- A plain time in whole milliseconds reads back rounded down. -/
theorem ofMillis?_millis (h : t.Plain) :
    ∃ s, ofMillis? t.millis = some s ∧ s ≤ t ∧ s.second = t.second := by
  refine ⟨_, ofMillis?_eq_floorMilli h, ?_, rfl⟩
  rw [le_iff]
  exact Or.inr ⟨rfl, Nat.div_mul_le_self _ _⟩

/-- What is no earlier than a whole millisecond does not fall into an earlier one. -/
theorem le_millis_of_ofMillis? {m : Int} (h : ofMillis? m = some now) (hle : now ≤ later) :
    m ≤ later.millis := by
  unfold ofMillis? ofParts? at h
  split at h
  · obtain rfl := Option.some.inj h
    rw [le_iff] at hle
    simp only [millis] at hle ⊢
    omega
  · cases h

/-- A time in whole seconds reads back rounded down. -/
theorem ofSeconds?_second (t : Instant) :
    ofSeconds? t.second = some ⟨t.second, 0, t.second_range, Or.inl (by decide)⟩ := by
  rw [ofSeconds?, ofParts?, dif_pos ⟨t.second_range, Or.inl (by decide)⟩]

theorem floorSecond_le (t : Instant) : t.floorSecond ≤ t := by
  rw [le_iff]
  exact Or.inr ⟨rfl, Nat.zero_le _⟩

/-- Rounding a plain time down to the second takes less than a second off. -/
theorem sinceEpoch_lt_floorSecond (h : t.Plain) :
    t.sinceEpoch < t.floorSecond.sinceEpoch + 1000000000 := by
  unfold Plain at h
  simp only [sinceEpoch, floorSecond]
  omega

end Bearer.Instant
