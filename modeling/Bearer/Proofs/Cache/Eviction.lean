/-
  What a local cache drops, nobody misses.

  An entry leaves a local cache when its key is set or deleted, when the cache
  is cleared or closed for the first time, and once it is past its deadline also
  by a look-up, a purge or a background sweep, whichever comes first.  Only the
  former show.  What a look-up finds is told by the past alone: the text that
  was last set under the key, as long as nothing has removed it and it has not
  come to its deadline.

  Main statements: `lookup_step` for one step, `lookup_after_iff` for all times
  that may still come, `gets_filter_sweep` for runs that differ in sweeps, and
  `eviction_unseen`.
-/
import Bearer.Fleet.Basic
import Bearer.Proofs.Cache.Tiers
import Mathlib.Data.List.Basic
import Mathlib.Data.List.Induction

namespace Bearer

/-! ## What happens to a local cache -/

/-- What happens to a local cache: it is called, it is swept in the background, or time passes. -/
inductive LocalStep where
  | get (key : String)
  | set (key value : String) (ttl : Duration)
  | delete (key : String)
  | clear
  | purge
  | close
  | sweep
  | pass (span : Duration)
  deriving DecidableEq

namespace LocalStep

variable {start time : Moment} {steps : List LocalStep} {x : LocalStep} {key value : String}
variable {ttl : Duration}

/-- The moment after a step. -/
def moment (now : Moment) : LocalStep → Moment
  | pass span => now.after span
  | _ => now

/-- The moment after some steps. -/
def momentAfter (start : Moment) (steps : List LocalStep) : Moment := steps.foldl moment start

/-- Whether a step sets or removes what is cached under a key; closing is not counted here. -/
def Replaces (key : String) : LocalStep → Prop
  | set other _ _ | delete other => other = key
  | clear => True
  | _ => False

/-- What is seen later on under a key after a step, by what would be seen without it: a text that is
set until its deadline, nothing if the key is deleted or the cache is cleared or closed for the first
time, and otherwise the same. -/
def shown (closed : Bool) (now later : Moment) (key : String) (before : Option String) :
    LocalStep → Option String
  | set other value ttl =>
    if key = other then
      if ttl.isZero = false ∧ later < now.expiry ttl then some value else none
    else before
  | delete other => if key = other then none else before
  | clear => none
  | close => if closed then before else none
  | _ => before

/-- Whether a text was the last to be set under a key, with some lifetime at some moment, and has
not been removed since: neither has the key been deleted, nor the cache been cleared or closed for
the first time. -/
def LastSet (start : Moment) (steps : List LocalStep) (key value : String) (ttl : Duration)
    (time : Moment) : Prop :=
  ∃ before after, steps = before ++ .set key value ttl :: after ∧
    momentAfter start before = time ∧ (∀ x ∈ after, ¬ x.Replaces key) ∧
    (.close ∈ after → .close ∈ before)

/-- No step goes back in time. -/
theorem le_moment (now : Moment) (x : LocalStep) : now ≤ x.moment now := by
  cases x with
  | pass span => exact Nat.le_add_right _ _
  | _ => exact Nat.le_refl _

/-- A text is seen after a step if the step sets it, or if it is seen before and the step does not
remove it. -/
theorem shown_eq_some_iff {closed : Bool} {now later : Moment} {before : Option String} :
    x.shown closed now later key before = some value ↔
      (∃ ttl, x = .set key value ttl ∧ ttl.isZero = false ∧ later < now.expiry ttl) ∨
        before = some value ∧ ¬ x.Replaces key ∧ (x = .close → closed = true) := by
  cases x with
  | set other text ttl =>
    by_cases hkey : key = other
    · subst hkey
      simp [shown, Replaces, and_assoc, and_comm]
    · simp [shown, Replaces, hkey, Ne.symm hkey]
  | delete other =>
    by_cases hkey : key = other
    · simp [shown, Replaces, hkey]
    · simp [shown, Replaces, hkey, Ne.symm hkey]
  | clear => simp [shown, Replaces]
  | close => cases closed <;> simp [shown, Replaces]
  | _ => simp [shown, Replaces]

theorem momentAfter_concat (start : Moment) (steps : List LocalStep) (x : LocalStep) :
    momentAfter start (steps ++ [x]) = x.moment (momentAfter start steps) :=
  List.foldl_append

/-- A text was the last to be set if the last step has set it, or if it was before and the last step
has not removed it. -/
theorem lastSet_concat : LastSet start (steps ++ [x]) key value ttl time ↔
    x = .set key value ttl ∧ momentAfter start steps = time ∨
      LastSet start steps key value ttl time ∧ ¬ x.Replaces key ∧
        (x = .close → .close ∈ steps) := by
  constructor
  · rintro ⟨before, after, hsplit, htime, hkept, hclosed⟩
    rcases List.eq_nil_or_concat' after with rfl | ⟨rest, last, rfl⟩
    · obtain ⟨rfl, hlast⟩ := List.append_inj' hsplit rfl
      exact Or.inl ⟨List.singleton_inj.1 hlast, htime⟩
    · rw [← List.cons_append, ← List.append_assoc] at hsplit
      obtain ⟨rfl, hlast⟩ := List.append_inj' hsplit rfl
      obtain rfl := List.singleton_inj.1 hlast
      rw [List.forall_mem_append, List.forall_mem_singleton] at hkept
      refine Or.inr ⟨⟨before, rest, rfl, htime, hkept.1, fun hmem =>
        hclosed (List.mem_append_left _ hmem)⟩, hkept.2, fun hclose => ?_⟩
      exact List.mem_append_left _ (hclosed (hclose ▸ List.mem_concat_self))
  · rintro (⟨rfl, htime⟩ | ⟨⟨before, rest, rfl, htime, hkept, hclosed⟩, hlast, hclose⟩)
    · exact ⟨steps, [], rfl, htime, by simp, by simp⟩
    · refine ⟨before, rest ++ [x], by simp, htime, ?_, fun hmem => ?_⟩
      · rw [List.forall_mem_append, List.forall_mem_singleton]
        exact ⟨hkept, hlast⟩
      · -- If the last step closes the cache, it was closed before the text was set or after that.
        have hearlier : .close ∈ before ++ .set key value ttl :: rest ∨ .close ∈ rest := by
          rcases List.mem_append.1 hmem with hrest | hend
          · exact Or.inr hrest
          · exact Or.inl (hclose (List.mem_singleton.1 hend).symm)
        simp only [List.mem_append, List.mem_cons, reduceCtorEq, false_or] at hearlier
        rcases hearlier with (hbefore | hrest) | hrest
        · exact hbefore
        · exact hclosed hrest
        · exact hclosed hrest

end LocalStep

open LocalStep

/-- A local cache at a moment. -/
structure LocalState where
  cache : LocalCache
  now : Moment

namespace LocalState

variable {s s' : LocalState} {start later : Moment} {steps : List LocalStep} {x : LocalStep}
variable {key value : String}

/-- A new cache at a moment. -/
def begin (start : Moment) : LocalState := ⟨.empty, start⟩

/-- The state after a step. -/
def step (s : LocalState) : LocalStep → LocalState
  | .get key => { s with cache := (s.cache.get s.now key).2 }
  | .set key value ttl => { s with cache := s.cache.set s.now key value ttl }
  | .delete key => { s with cache := s.cache.delete key }
  | .clear => { s with cache := s.cache.clear }
  | .purge => { s with cache := (s.cache.purgeExpired s.now).2 }
  | .close => { s with cache := s.cache.close }
  | .sweep => { s with cache := s.cache.purge s.now }
  | .pass span => { s with now := s.now.after span }

/-- The state after some steps. -/
def after (s : LocalState) (steps : List LocalStep) : LocalState := steps.foldl step s

/-- What the look-ups among some steps find, the first one first. -/
def gets : LocalState → List LocalStep → List (Option String)
  | _, [] => []
  | s, .get key :: steps => (s.cache.get s.now key).1 :: gets (s.step (.get key)) steps
  | s, x :: steps => gets (s.step x) steps

theorem after_concat (s : LocalState) (steps : List LocalStep) (x : LocalStep) :
    s.after (steps ++ [x]) = (s.after steps).step x := List.foldl_append

/-! ## What one step does -/

theorem now_step (s : LocalState) (x : LocalStep) : (s.step x).now = x.moment s.now := by
  cases x <;> rfl

/-- Closing is the only step after which a cache is closed that was not so before. -/
theorem closed_step (s : LocalState) (x : LocalStep) :
    (s.step x).cache.closed = true ↔ x = .close ∨ s.cache.closed = true := by
  cases x with
  | get key =>
    show (s.cache.evict s.now key).closed = true ↔ _
    rw [LocalCache.closed_evict]
    exact (or_iff_right nofun).symm
  | close => exact iff_of_true s.cache.closed_close (Or.inl rfl)
  | _ => exact (or_iff_right nofun).symm

/-- What is seen after a step, from then on. -/
theorem lookup_step (x : LocalStep) (hlater : (s.step x).now ≤ later) (key : String) :
    (s.step x).cache.lookup later key =
      x.shown s.cache.closed s.now later key (s.cache.lookup later key) := by
  cases x with
  | get other => exact LocalCache.lookup_evict s.cache hlater other key
  | set other value ttl => exact LocalCache.lookup_set s.cache s.now later other key value ttl
  | delete other => exact LocalCache.lookup_delete s.cache later other key
  | clear => exact LocalCache.lookup_clear s.cache later key
  | purge => exact LocalCache.lookup_purge s.cache hlater key
  | sweep => exact LocalCache.lookup_purge s.cache hlater key
  | pass span => rfl
  | close =>
    show s.cache.close.lookup later key = _
    unfold LocalCache.close shown
    split <;> rfl

/-! ## What a run leaves -/

theorem now_after (s : LocalState) (steps : List LocalStep) :
    (s.after steps).now = momentAfter s.now steps := by
  induction steps using List.reverseRecOn with
  | nil => rfl
  | append_singleton steps x ih => rw [after_concat, now_step, momentAfter_concat, ih]

/-- A cache is closed once it has been closed. -/
theorem closed_after (start : Moment) (steps : List LocalStep) :
    ((begin start).after steps).cache.closed = true ↔ .close ∈ steps := by
  induction steps using List.reverseRecOn with
  | nil => simp [after, begin, LocalCache.empty]
  | append_singleton steps x ih =>
    rw [after_concat, closed_step, ih, List.mem_append, List.mem_singleton, or_comm, eq_comm]

/-- After any steps, closing empties a cache only if no step has closed it. -/
theorem entries_close_after (start : Moment) (steps : List LocalStep) :
    ((begin start).after steps).cache.close.entries =
      if .close ∈ steps then ((begin start).after steps).cache.entries else Table.empty := by
  simp only [← closed_after start]
  unfold LocalCache.close
  split <;> rfl

/-- From now on, a key shows the text that was last set under it, until its deadline. -/
theorem lookup_after_iff (start : Moment) (steps : List LocalStep)
    (hlater : momentAfter start steps ≤ later) :
    ((begin start).after steps).cache.lookup later key = some value ↔
      ∃ ttl time, LastSet start steps key value ttl time ∧ ttl.isZero = false ∧
        later < time.expiry ttl := by
  -- By induction on the steps, the last one of which is taken off.
  induction steps using List.reverseRecOn with
  | nil =>
    show LocalCache.empty.lookup later key = some value ↔ _
    rw [LocalCache.lookup_empty]
    constructor
    · intro hfound
      cases hfound
    · rintro ⟨ttl, time, ⟨before, after, hsplit, -⟩, -⟩
      simp at hsplit
  | append_singleton steps x ih =>
    have hnow : (((begin start).after steps).step x).now ≤ later := by
      rw [← after_concat, now_after]
      exact hlater
    have hbefore := ih (by
      rw [momentAfter_concat] at hlater
      exact Nat.le_trans (le_moment _ x) hlater)
    have htime : ((begin start).after steps).now = momentAfter start steps := now_after ..
    rw [after_concat, lookup_step x hnow, shown_eq_some_iff, hbefore, closed_after, htime]
    simp only [lastSet_concat]
    constructor
    · rintro (⟨ttl, hset, hlive⟩ | ⟨⟨ttl, time, hlast, hlive⟩, hkept⟩)
      · exact ⟨ttl, _, Or.inl ⟨hset, rfl⟩, hlive⟩
      · exact ⟨ttl, time, Or.inr ⟨hlast, hkept⟩, hlive⟩
    · rintro ⟨ttl, time, ⟨hset, rfl⟩ | ⟨hlast, hkept⟩, hlive⟩
      · exact Or.inl ⟨ttl, hset, hlive⟩
      · exact Or.inr ⟨⟨ttl, time, hlast, hlive⟩, hkept⟩

/-! ## Sweeps -/

/-- Whether two states show the same from now on. -/
structure Same (s s' : LocalState) : Prop where
  now : s.now = s'.now
  closed : s.cache.closed = s'.cache.closed
  shown : ∀ later key, s.now ≤ later → s.cache.lookup later key = s'.cache.lookup later key

theorem Same.step (h : Same s s') (x : LocalStep) : Same (s.step x) (s'.step x) where
  now := by rw [now_step, now_step, h.now]
  closed := by rw [Bool.eq_iff_iff, closed_step, closed_step, h.closed]
  shown later key hlater := by
    have hnow : s.now ≤ later := by
      rw [now_step] at hlater
      exact Nat.le_trans (le_moment s.now x) hlater
    have hlater' : (s'.step x).now ≤ later := by
      rwa [now_step, ← h.now, ← now_step]
    rw [lookup_step x hlater, lookup_step x hlater', h.now, h.closed, h.shown later key hnow]

/-- A sweep does not show. -/
theorem Same.sweep (h : Same s s') : Same (s.step .sweep) s' where
  now := h.now
  closed := h.closed
  shown later key hlater := (lookup_step .sweep hlater key).trans (h.shown later key hlater)

/-- Without its sweeps, a run finds the same. -/
theorem gets_filter_sweep (h : Same s s') (steps : List LocalStep) :
    s.gets steps = s'.gets (steps.filter (· ≠ .sweep)) := by
  induction steps generalizing s s' with
  | nil => rfl
  | cons x steps ih =>
    cases x with
    | get key =>
      show s.cache.lookup s.now key :: _ = s'.cache.lookup s'.now key :: _
      rw [h.shown s.now key (Nat.le_refl _), h.now]
      exact congrArg _ (ih (h.step (.get key)))
    | sweep => exact ih h.sweep
    | set key value ttl => exact ih (h.step (.set key value ttl))
    | delete key => exact ih (h.step (.delete key))
    | clear => exact ih (h.step .clear)
    | purge => exact ih (h.step .purge)
    | close => exact ih (h.step .close)
    | pass span => exact ih (h.step (.pass span))

/-- Runs that differ in nothing but their sweeps find the same. -/
theorem gets_eq_of_filter {other : List LocalStep}
    (hsame : other.filter (· ≠ .sweep) = steps.filter (· ≠ .sweep)) (s : LocalState) :
    s.gets other = s.gets steps := by
  have hrefl : Same s s := ⟨rfl, rfl, fun _ _ _ => rfl⟩
  rw [gets_filter_sweep hrefl other, gets_filter_sweep hrefl steps, hsame]

/-- A background sweep is a sweep or nothing. -/
theorem sweepIfDue_cases (i : Instance) (now : Moment) :
    (i.sweepIfDue now).cache.near = i.cache.near ∨
      (i.sweepIfDue now).cache.near = (step ⟨i.cache.near, now⟩ .sweep).cache := by
  unfold Instance.sweepIfDue
  split
  · split
    · exact Or.inl rfl
    · split
      · exact Or.inr rfl
      · exact Or.inl rfl
  · exact Or.inl rfl

/-! ## A run of a local cache -/

/-- After any steps, a look-up finds the text that was last set under its key if that has not been
removed since and has not come to its deadline, and nothing otherwise; sweeps change nothing in what
the look-ups among the steps find.  A purge counts and removes the entries that have come to their
deadline, and only the first closing removes the others. -/
theorem eviction_unseen (start : Moment) (steps : List LocalStep) :
    let s := (begin start).after steps
    (s.now = momentAfter start steps ∧
      ∀ key value, (s.cache.get s.now key).1 = some value ↔
        ∃ ttl time, LastSet start steps key value ttl time ∧ ttl.isZero = false ∧
          s.now < time.after (min ttl maxTtl)) ∧
      ((∀ other, other.filter (· ≠ .sweep) = steps.filter (· ≠ .sweep) →
          (begin start).gets other = (begin start).gets steps) ∧
        ∀ i : Instance, i.cache.near = s.cache →
          (i.sweepIfDue s.now).cache.near = s.cache ∨
            (i.sweepIfDue s.now).cache.near = (s.step .sweep).cache) ∧
      ((s.cache.purgeExpired s.now).1 = s.cache.entries.count (fun _ e => e.deadline ≤ s.now) ∧
        ∀ key, (s.cache.purgeExpired s.now).2.entries.get? key =
          (s.cache.entries.get? key).filter fun e => s.now < e.deadline) ∧
      s.cache.close.entries = if .close ∈ steps then s.cache.entries else Table.empty := by
  intro s
  have hnow : s.now = momentAfter start steps := now_after ..
  have hreached : momentAfter start steps ≤ s.now := by
    rw [hnow]
    exact Nat.le_refl _
  refine ⟨⟨hnow, fun key value => lookup_after_iff start steps hreached⟩,
    ⟨fun other hsame => gets_eq_of_filter hsame _, fun i hi => ?_⟩,
    ⟨s.cache.purgeExpired_fst _, s.cache.get?_purgeExpired _⟩, entries_close_after start steps⟩
  have hcases := sweepIfDue_cases i s.now
  rwa [hi] at hcases

/-- A cache in which a text is set for two hundred years, which is then closed, and closed again
after another text has been set for five seconds. -/
def demoSteps : List LocalStep :=
  [.set "k" "v" (.ofSeconds (200 * 365 * 24 * 3600)), .close, .set "k" "w" (.ofSeconds 5), .close,
    .pass (.ofSeconds 3), .sweep, .get "k"]

/-- Without the sweep, the same is found; it is the text that was set last, which outlives the
second closing. -/
theorem eviction_unseen_demo :
    let s := (begin ⟨0⟩).after demoSteps
    (begin ⟨0⟩).gets (demoSteps.filter (· ≠ .sweep)) = (begin ⟨0⟩).gets demoSteps ∧
      (s.cache.get s.now "k").1 = some "w" ∧ s.cache.close.entries = s.cache.entries := by
  intro s
  obtain ⟨⟨hnow, hget⟩, ⟨hsweeps, -⟩, -, hclose⟩ := eviction_unseen ⟨0⟩ demoSteps
  have hlast : LastSet ⟨0⟩ demoSteps "k" "w" (.ofSeconds 5) ⟨0⟩ :=
    ⟨[.set "k" "v" (.ofSeconds (200 * 365 * 24 * 3600)), .close],
      [.close, .pass (.ofSeconds 3), .sweep, .get "k"], rfl, rfl, by simp [Replaces], by simp⟩
  have hlive : s.now < Moment.after ⟨0⟩ (min (.ofSeconds 5) maxTtl) := by
    rw [hnow]
    decide
  exact ⟨hsweeps _ (by simp), (hget "k" "w").2 ⟨_, _, hlast, rfl, hlive⟩,
    hclose.trans (if_pos (by decide))⟩

end LocalState

end Bearer
