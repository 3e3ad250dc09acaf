/-
  What the statistics of a two-tier cache count.

  An operation is gone through once for every way in which the shared cache may
  answer, counting the calls to it that fail.  A look-up raises one of the three
  counts of what reads found, by one, and nothing else does.  A call that fails
  is counted where it is made, by every operation but one: invalidating hands on
  the error of its scan or its deletion and counts neither.

  Main statements: `tallies_operation`, `perform_stats` and `stats_of_run`.
-/
import Bearer.Cache.SharedMemory
import Bearer.Cache.Tiered

namespace Bearer

/-- One for a call to the shared cache that has failed, zero for whatever else is answered. -/
def SharedRequest.failed : (r : SharedRequest) → r.Reply → Nat
  | .moment, _ | .shared _, .ok _ => 0
  | .shared _, .error _ => 1

/-- Whether a call looks up what is cached under a key. -/
def CacheCall.reads : CacheCall → Bool
  | getString _ | fetch .. => true
  | setString .. | store .. | delete _ | contains _ | invalidate _ => false

/-- Whether a call removes everything that matches a pattern. -/
def CacheCall.invalidates : CacheCall → Bool
  | invalidate _ => true
  | getString _ | setString .. | fetch .. | store .. | delete _ | contains _ => false

namespace CacheStats

/-- How many reads found something locally, found it in the shared cache, and found nothing. -/
def found (s : CacheStats) : Nat × Nat × Nat := (s.localHits, s.sharedHits, s.misses)

/-- Whether one of these numbers has gone up by one, and the others have not changed. -/
def ReadOnce (s s' : CacheStats) : Prop :=
  s'.found = s.countLocalHit.found ∨ s'.found = s.countSharedHit.found ∨
    s'.found = s.countMiss.found

theorem ReadOnce.reads_eq {s s' : CacheStats} (h : s.ReadOnce s') : s'.reads = s.reads + 1 := by
  rcases h with hfound | hfound | hfound
  all_goals
    simp only [found, countLocalHit, countSharedHit, countMiss, Prod.mk.injEq] at hfound
    obtain ⟨hlocal, hshared, hmiss⟩ := hfound
    simp only [reads, hits]
    omega

theorem reads_eq_of_found {s s' : CacheStats} (h : s'.found = s.found) : s'.reads = s.reads := by
  simp only [found, Prod.mk.injEq] at h
  obtain ⟨hlocal, hshared, hmiss⟩ := h
  simp only [reads, hits]
  omega

end CacheStats

namespace TieredCache

/-! ## Counting the calls that fail -/

section

variable {α β σ : Type}

/-- Whether a program, when some calls have failed already, ends as `post` says of its result and
of all that have failed by then, whatever it is answered. -/
def Tells (post : Nat → α → Prop) : Nat → Prog SharedRequest SharedRequest.Reply α → Prop
  | n, .done value => post n value
  | n, .ask r next => ∀ reply, Tells post (n + r.failed reply) (next reply)

theorem tells_bind (post : Nat → β → Prop) (p : Prog SharedRequest SharedRequest.Reply α)
    (f : α → Prog SharedRequest SharedRequest.Reply β) (n : Nat) :
    Tells post n (p.bind f) ↔ Tells (fun n' a => Tells post n' (f a)) n p := by
  induction p generalizing n with
  | done value => exact Iff.rfl
  | ask r next ih => exact forall_congr' fun reply => ih reply _

theorem Tells.mono {post post' : Nat → α → Prop} {p : Prog SharedRequest SharedRequest.Reply α}
    {n : Nat} (h : Tells post n p) (hpost : ∀ n a, post n a → post' n a) : Tells post' n p := by
  induction p generalizing n with
  | done value => exact hpost n value h
  | ask r next ih => exact fun reply => ih reply (h reply)

/-- How many of the calls to the shared cache fail that a program makes when it runs. -/
def failuresOf (answer : (r : SharedRequest) → σ → r.Reply × σ) :
    Prog SharedRequest SharedRequest.Reply α → σ → Nat
  | .done _, _ => 0
  | .ask r next, s =>
    r.failed (answer r s).1 + failuresOf answer (next (answer r s).1) (answer r s).2

/-- What is told of a program whatever it is answered is so when it runs. -/
theorem Tells.run {post : Nat → α → Prop} {p : Prog SharedRequest SharedRequest.Reply α} {n : Nat}
    (h : Tells post n p) (answer : (r : SharedRequest) → σ → r.Reply × σ) (s : σ) :
    post (n + failuresOf answer p s) (p.run answer s).1 := by
  induction p generalizing n s with
  | done value => exact h
  | ask r next ih =>
    have hnext := ih (answer r s).1 (h (answer r s).1) (answer r s).2
    rw [Nat.add_assoc] at hnext
    exact hnext

end

/-! ## Rules -/

variable {α β : Type} {cache : TieredCache} {n : Nat}

/-- Whether an operation ends as `post` says, whatever it is answered. -/
def Tallies (m : CacheM α) (post : α → TieredCache → Nat → Prop) (cache : TieredCache) (n : Nat) :
    Prop :=
  Tells (fun failed ended => post ended.1 ended.2 failed) n (m.run cache)

theorem tallies_bind (m : CacheM α) (f : α → CacheM β) {post : β → TieredCache → Nat → Prop} :
    Tallies (m >>= f) post cache n ↔
      Tallies m (fun a c failed => Tallies (f a) post c failed) cache n :=
  tells_bind ..

theorem Tallies.mono {m : CacheM α} {post post' : α → TieredCache → Nat → Prop}
    (h : Tallies m post cache n) (hpost : ∀ a c failed, post a c failed → post' a c failed) :
    Tallies m post' cache n :=
  Tells.mono h fun failed ended => hpost ended.1 ended.2 failed

theorem tallies_get {post : TieredCache → TieredCache → Nat → Prop} :
    Tallies get post cache n ↔ post cache cache n := Iff.rfl

theorem tallies_count (f : CacheStats → CacheStats) {post : Unit → TieredCache → Nat → Prop} :
    Tallies (count f) post cache n ↔ post () { cache with stats := f cache.stats } n := Iff.rfl

theorem tallies_modifyNear (f : LocalCache → LocalCache) {post : Unit → TieredCache → Nat → Prop} :
    Tallies (modifyNear f) post cache n ↔ post () { cache with near := f cache.near } n := Iff.rfl

theorem tallies_getNear (key : String) {post : Option String → TieredCache → Nat → Prop} :
    Tallies (getNear key) post cache n ↔
      ∀ now, post (cache.near.lookup now key) { cache with near := cache.near.evict now key } n :=
  Iff.rfl

theorem tallies_setNear (key value : String) (ttl : Duration)
    {post : Unit → TieredCache → Nat → Prop} :
    Tallies (setNear key value ttl) post cache n ↔
      ∀ now, post () { cache with near := cache.near.set now key value (cache.localTtl ttl) } n :=
  Iff.rfl

theorem tallies_shared (c : SharedCall) {post : c.Reply → TieredCache → Nat → Prop} :
    Tallies (shared c) post cache n ↔
      ∀ reply, post reply cache (n + (SharedRequest.shared c).failed reply) := Iff.rfl

/-- A call that is counted when it fails raises the count as often as it fails. -/
theorem tallies_counted (c : SharedCall) {post : c.Reply → TieredCache → Nat → Prop}
    (ok : ∀ answer, post (.ok answer) cache n)
    (error : ∀ e, post (.error e) { cache with stats := cache.stats.countSharedError } (n + 1)) :
    Tallies (counted c) post cache n := by
  rw [counted, tallies_bind, tallies_shared]
  intro reply
  cases reply with
  | ok answer => exact ok answer
  | error e => exact error e

/-! ## Operations -/

/-- Whether no read has been counted, and every call that has failed in between. -/
structure Unread (s : CacheStats) (n : Nat) (s' : CacheStats) (n' : Nat) : Prop where
  found : s'.found = s.found
  errors : s'.sharedErrors + n = s.sharedErrors + n'

/-- Whether one read has been counted, and every call that has failed in between. -/
structure Read (s : CacheStats) (n : Nat) (s' : CacheStats) (n' : Nat) : Prop where
  found : s.ReadOnce s'
  errors : s'.sharedErrors + n = s.sharedErrors + n'

theorem Read.unread {s s' s'' : CacheStats} {n n' n'' : Nat} (h : Read s n s' n')
    (hafter : Unread s' n' s'' n'') : Read s n s'' n'' := by
  obtain ⟨hfound, herrors⟩ := h
  obtain ⟨hfound', herrors'⟩ := hafter
  constructor
  · unfold CacheStats.ReadOnce
    rw [hfound']
    exact hfound
  · omega

theorem tallies_getString (key : String) :
    Tallies (getString key) (fun _ c n' => Read cache.stats n c.stats n') cache n := by
  rw [getString, tallies_bind, tallies_getNear]
  intro now
  cases cache.near.lookup now key with
  | some value => exact ⟨Or.inl rfl, rfl⟩
  | none =>
    dsimp only
    rw [tallies_bind, tallies_get]
    split
    · rw [tallies_bind]
      apply tallies_counted
      · intro answer
        cases answer with
        | none => exact ⟨Or.inr (Or.inr rfl), rfl⟩
        | some found =>
          dsimp only
          rw [tallies_bind, tallies_count, tallies_bind, tallies_get, tallies_bind, tallies_setNear]
          intro later
          exact ⟨Or.inr (Or.inl rfl), rfl⟩
      · intro e
        exact ⟨Or.inr (Or.inr rfl), Nat.add_right_comm ..⟩
    · exact ⟨Or.inr (Or.inr rfl), rfl⟩

/-- A call that is counted when it fails counts no read. -/
theorem unread_counted (c : SharedCall) {s : CacheStats} (hstats : cache.stats = s) :
    Tallies (counted c) (fun _ c n' => Unread s n c.stats n') cache n := by
  subst hstats
  apply tallies_counted
  · intro answer
    exact ⟨rfl, rfl⟩
  · intro e
    exact ⟨rfl, Nat.add_right_comm ..⟩

theorem tallies_delete (key : String) :
    Tallies (delete key) (fun _ c n' => Unread cache.stats n c.stats n') cache n := by
  rw [delete, tallies_bind, tallies_modifyNear, tallies_bind, tallies_get]
  split
  · rw [tallies_bind]
    exact (unread_counted _ rfl).mono fun _ _ _ hcounted => hcounted
  · exact ⟨rfl, rfl⟩

theorem tallies_setString (key value : String) (ttl : Option Duration) :
    Tallies (setString key value ttl) (fun _ c n' => Unread cache.stats n c.stats n') cache n := by
  rw [setString, tallies_bind, tallies_get]
  dsimp only
  split
  · exact tallies_delete key
  · rw [tallies_bind, tallies_setNear]
    intro now
    rw [tallies_bind, tallies_get]
    split
    · exact unread_counted _ rfl
    · exact ⟨rfl, rfl⟩

/-- Removing what is no value of the kind counts no second read. -/
theorem tallies_fetch (kind : Kind) (key : String) :
    Tallies (fetch kind key) (fun _ c n' => Read cache.stats n c.stats n') cache n := by
  rw [fetch, tallies_bind]
  apply (tallies_getString key).mono
  intro found c n' hread
  cases found with
  | none => exact hread
  | some text =>
    dsimp only
    cases Envelope.decode kind text with
    | ok value => exact hread
    | error e =>
      dsimp only
      rw [tallies_bind]
      exact (tallies_delete key).mono fun _ _ _ hafter => hread.unread hafter

theorem tallies_contains (key : String) :
    Tallies (contains key) (fun _ c n' => Unread cache.stats n c.stats n') cache n := by
  rw [contains, tallies_bind, tallies_getNear]
  intro now
  cases cache.near.lookup now key with
  | some value => exact ⟨rfl, rfl⟩
  | none =>
    dsimp only
    rw [tallies_bind, tallies_get]
    split
    · rw [tallies_bind]
      apply (unread_counted _ rfl).mono
      intro reply c n' hafter
      cases reply with
      | ok answer => exact hafter
      | error e => exact hafter
    · exact ⟨rfl, rfl⟩

/-- Invalidating counts nothing, whether its calls fail or not. -/
theorem tallies_invalidate (pattern : String) :
    Tallies (invalidate pattern) (fun _ c _ => c.stats = cache.stats) cache n := by
  rw [invalidate, tallies_bind, tallies_modifyNear, tallies_bind, tallies_get]
  split
  · rw [tallies_bind, tallies_shared]
    intro reply
    rcases reply with e | _ | ⟨key, keys⟩
    · rfl
    · rfl
    · show ∀ reply, _
      intro reply
      rfl
  · rfl

/-- Every look-up counts one read and no other call does, and every call but an invalidation counts
what fails in it. -/
theorem tallies_operation (c : CacheCall) :
    Tallies (operation c) (fun _ c' n' =>
      (if c.reads then cache.stats.ReadOnce c'.stats else c'.stats.found = cache.stats.found) ∧
        if c.invalidates then c'.stats.sharedErrors = cache.stats.sharedErrors
        else c'.stats.sharedErrors + n = cache.stats.sharedErrors + n') cache n := by
  cases c with
  | getString key =>
    exact (tallies_getString key).mono fun _ _ _ hread => ⟨hread.found, hread.errors⟩
  | setString key value ttl =>
    exact (tallies_setString key value ttl).mono fun _ _ _ h => ⟨h.found, h.errors⟩
  | fetch kind key =>
    exact (tallies_fetch kind key).mono fun _ _ _ hread => ⟨hread.found, hread.errors⟩
  | store kind key value ttl =>
    exact (tallies_setString key _ ttl).mono fun _ _ _ h => ⟨h.found, h.errors⟩
  | delete key => exact (tallies_delete key).mono fun _ _ _ h => ⟨h.found, h.errors⟩
  | contains key => exact (tallies_contains key).mono fun _ _ _ h => ⟨h.found, h.errors⟩
  | invalidate pattern =>
    apply (tallies_invalidate pattern).mono
    intro _ c' _ hstats
    exact ⟨congrArg CacheStats.found hstats, congrArg CacheStats.sharedErrors hstats⟩

/-! ## Runs -/

section

variable {ρ : Type} [SharedBackend ρ]

/-- How many of the calls to the shared cache fail that a call makes. -/
def failures (cache : TieredCache) (c : CacheCall) (now : Moment) (shared : ρ) : Nat :=
  failuresOf SharedBackend.answer ((operation c).run cache) (now, shared)

/-- What a call does to the statistics. -/
theorem perform_stats (cache : TieredCache) (c : CacheCall) (now : Moment) (shared : ρ) :
    (if c.reads then cache.stats.ReadOnce (cache.perform c now shared).1.2.stats
      else (cache.perform c now shared).1.2.stats.found = cache.stats.found) ∧
    (cache.perform c now shared).1.2.stats.sharedErrors =
      cache.stats.sharedErrors + if c.invalidates then 0 else cache.failures c now shared := by
  have hrun : (if c.reads then cache.stats.ReadOnce (cache.perform c now shared).1.2.stats
        else (cache.perform c now shared).1.2.stats.found = cache.stats.found) ∧
      if c.invalidates then
        (cache.perform c now shared).1.2.stats.sharedErrors = cache.stats.sharedErrors
      else (cache.perform c now shared).1.2.stats.sharedErrors + 0 =
        cache.stats.sharedErrors + (0 + cache.failures c now shared) :=
    (tallies_operation c).run SharedBackend.answer (now, shared)
  refine ⟨hrun.1, ?_⟩
  obtain ⟨-, herrors⟩ := hrun
  split at herrors
  · next hinvalidates => rw [herrors, if_pos hinvalidates, Nat.add_zero]
  · next hother =>
    rw [if_neg hother]
    omega

end

/-- What a cache meets: a call, with the shared cache as it is by then, or a sweep. -/
inductive Encounter (ρ : Type) where
  | call (c : CacheCall) (now : Moment) (shared : ρ)
  | sweep (now : Moment)

/-- Whether what a cache meets is a look-up. -/
def Encounter.reads {ρ : Type} : Encounter ρ → Bool
  | call c _ _ => c.reads
  | sweep _ => false

variable {ρ : Type} [SharedBackend ρ]

/-- The cache after what it meets. -/
def meet (cache : TieredCache) : Encounter ρ → TieredCache
  | .call c now shared => (cache.perform c now shared).1.2
  | .sweep now => { cache with near := cache.near.purge now }

/-- The cache after all that it meets. -/
def meetAll (cache : TieredCache) (run : List (Encounter ρ)) : TieredCache := run.foldl meet cache

/-- How many calls to the shared cache fail that some of the calls make which a cache meets. -/
def failuresIn (which : CacheCall → Bool) : TieredCache → List (Encounter ρ) → Nat
  | _, [] => 0
  | cache, .call c now shared :: run =>
    (if which c then cache.failures c now shared else 0) +
      failuresIn which (cache.meet (.call c now shared)) run
  | cache, .sweep now :: run => failuresIn which (cache.meet (.sweep now : Encounter ρ)) run

theorem reads_meetAll (cache : TieredCache) (run : List (Encounter ρ)) :
    (cache.meetAll run).stats.reads = cache.stats.reads + run.countP Encounter.reads := by
  induction run generalizing cache with
  | nil => rfl
  | cons e run ih =>
    have hstep : (cache.meet e).stats.reads = cache.stats.reads + if e.reads then 1 else 0 := by
      cases e with
      | sweep now => rfl
      | call c now shared =>
        obtain ⟨hfound, -⟩ := cache.perform_stats c now shared
        show (cache.perform c now shared).1.2.stats.reads = _ + if c.reads then 1 else 0
        split at hfound
        · next hreads => rw [if_pos hreads, hfound.reads_eq]
        · next hother => rw [if_neg hother, CacheStats.reads_eq_of_found hfound, Nat.add_zero]
    have hrest := ih (cache.meet e)
    show ((cache.meet e).meetAll run).stats.reads = _
    rw [List.countP_cons]
    omega

theorem sharedErrors_meetAll (cache : TieredCache) (run : List (Encounter ρ)) :
    (cache.meetAll run).stats.sharedErrors + failuresIn CacheCall.invalidates cache run =
      cache.stats.sharedErrors + failuresIn (fun _ => true) cache run := by
  induction run generalizing cache with
  | nil => rfl
  | cons e run ih =>
    have hrest := ih (cache.meet e)
    show ((cache.meet e).meetAll run).stats.sharedErrors + _ = _
    cases e with
    | sweep now => exact hrest
    | call c now shared =>
      obtain ⟨-, herrors⟩ := cache.perform_stats c now shared
      have hmet : (cache.meet (.call c now shared)).stats.sharedErrors = _ := herrors
      rw [failuresIn, failuresIn, if_pos rfl]
      by_cases hinvalidates : c.invalidates = true
      · rw [if_pos hinvalidates] at hmet ⊢
        omega
      · rw [if_neg hinvalidates] at hmet ⊢
        omega

/-- Whatever a new cache meets, its statistics have counted as many reads as there were look-ups,
and as many failures as calls to the shared cache have failed, less those that invalidations have
made.  A look-up raises one of the three counts of what reads found, by one, and no other call
raises any. -/
theorem stats_of_run (config : CacheConfig) (sharedGiven : Bool) (run : List (Encounter ρ)) :
    let cache := (new config sharedGiven).meetAll run
    cache.stats.localHits + cache.stats.sharedHits + cache.stats.misses =
      run.countP Encounter.reads ∧
    (∀ (c : CacheCall) (now : Moment) (shared : ρ),
      if c.reads then cache.stats.ReadOnce (cache.perform c now shared).1.2.stats
      else (cache.perform c now shared).1.2.stats.found = cache.stats.found) ∧
    cache.stats.sharedErrors + failuresIn CacheCall.invalidates (new config sharedGiven) run =
      failuresIn (fun _ => true) (new config sharedGiven) run := by
  intro cache
  have hreads := (new config sharedGiven).reads_meetAll run
  have herrors := (new config sharedGiven).sharedErrors_meetAll run
  have hnew : (new config sharedGiven).stats = .zero := rfl
  rw [hnew] at hreads herrors
  refine ⟨?_, fun c now shared => (cache.perform_stats c now shared).1, ?_⟩
  · show cache.stats.reads = _
    rw [hreads]
    exact Nat.zero_add _
  · rw [herrors]
    exact Nat.zero_add _

/-- A shared cache that is not to be reached. -/
def unreachable : SharedMemory := { SharedMemory.empty with offline := true }

/-- An invalidation whose scan fails, which is not counted. -/
theorem failure_of_invalidation :
    let run := [Encounter.call (.invalidate "user:1:*") ⟨0⟩ unreachable]
    failuresIn (fun _ => true) (new .default true) run = 1 ∧
      ((new .default true).meetAll run).stats.sharedErrors = 0 := by
  decide

end TieredCache

end Bearer
