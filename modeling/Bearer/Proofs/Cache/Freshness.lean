/-
  How old what a cache answers can be.

  Several caches over one shared cache hold copies that nothing takes back when
  another one overwrites or removes the text.  But a copy is made of what the
  shared cache shows when the copy is made, and lives for at most the local
  limit.  So what a cache answers, the shared cache showed less than the local
  limit ago.

  Main statements: `TieredCache.within_perform_of` for one operation,
  `CacheGroup.sourced_play` for the copies of all caches after a run, and
  `CacheGroup.getString_fresh`.
-/
import Mathlib.Data.List.Induction
import Mathlib.Logic.Function.Basic
import Bearer.Proofs.Cache.Tiered

namespace Bearer

/-- Whether a shared cache shows a text under a key. -/
def SharedMemory.Shows (m : SharedMemory) (now : Moment) (key text : String) : Prop :=
  ∃ deadline, m.lookup now key = some ⟨.text text, deadline⟩

namespace TieredCache

variable {rule : EntryRule} {now : Moment} {cache : TieredCache} {shared : SharedMemory}

/-! ## Where copies come from -/

/-- What a look-up or a removal keeps: nothing new is shown, and what is held locally was held
before or is a copy. -/
structure Copying (rule : EntryRule) (now : Moment) (cache : TieredCache) (shared : SharedMemory)
    (cache' : TieredCache) (shared' : SharedMemory) : Prop where
  config : cache'.config = cache.config
  shows : ∀ key text, shared'.Shows now key text → shared.Shows now key text
  near : cache'.near.Within rule

theorem Copying.keptAt
    (hcopy : ∀ key text deadline, shared.Shows now key text →
      deadline ≤ now.after cache.config.localTtl → rule key text (some deadline)) (key : String) :
    KeptAt key now (Copying rule now cache shared) where
  stats h _ := ⟨h.config, h.shows, h.near⟩
  evict h := ⟨h.config, h.shows, LocalCache.within_evict h.near now key⟩
  delete h := ⟨h.config, h.shows, LocalCache.within_delete h.near key⟩
  copy := by
    intro c s text remaining h _ hreply
    refine ⟨h.config, h.shows, LocalCache.within_set h.near ?_⟩
    apply hcopy key text _ (h.shows key text ?_)
    · -- The local limit bounds the time of the copy.
      rw [← h.config]
      simp only [Moment.le_def, Moment.expiry, localTtl, Moment.nanos_after, Duration.nanos_min]
      omega
    · by_cases hreach : s.Unreachable
      · exact absurd hreply (SharedMemory.perform_getWithTtl_ne_ok hreach key _)
      · exact (SharedMemory.getWithTtl_eq_ok_iff hreach).1 ⟨remaining, hreply⟩
  ask := by
    intro c s h
    refine ⟨h.config, ?_, h.near⟩
    intro other text hshows
    unfold SharedMemory.Shows at hshows
    rw [s.lookup_getWithTtl (Nat.le_refl _)] at hshows
    exact h.shows other text hshows
  remove := by
    intro c s h
    refine ⟨h.config, ?_, h.near⟩
    rintro other text ⟨deadline, hlookup⟩
    apply h.shows other text
    by_cases hreach : s.Unreachable
    · rw [SharedMemory.perform_unreachable hreach] at hlookup
      exact ⟨deadline, hlookup⟩
    · rw [SharedMemory.perform_reachable hreach] at hlookup
      change (s.remove key).lookup now other = _ at hlookup
      rw [SharedMemory.lookup_remove] at hlookup
      split at hlookup
      · cases hlookup
      · exact ⟨deadline, hlookup⟩

/-- After an operation everything held locally is allowed by a rule that allowed it before, and that
allows, for the local limit, what the shared cache showed before the operation or shows after it. -/
theorem within_perform_of (hshared : cache.hasShared = true) (hreach : ¬ shared.Unreachable)
    (c : CacheCall) (hnear : cache.near.Within rule)
    (hbefore : ∀ key text deadline, shared.Shows now key text →
      deadline ≤ now.after cache.config.localTtl → rule key text (some deadline))
    (hafter : ∀ key text deadline, (cache.perform c now shared).2.2.Shows now key text →
      deadline ≤ now.after cache.config.localTtl → rule key text (some deadline)) :
    (cache.perform c now shared).1.2.near.Within rule := by
  have keeps : ∀ key, KeptAt key now (Copying rule now cache shared) := Copying.keptAt hbefore
  have h : Copying rule now cache shared cache shared := ⟨rfl, fun _ _ hshows => hshows, hnear⟩
  -- What an operation writes, the shared cache shows afterwards.
  have hset : ∀ key value ttl, Ends now (setString key value ttl)
      (fun _ c s => (∀ key text deadline, s.Shows now key text →
        deadline ≤ now.after cache.config.localTtl → rule key text (some deadline)) →
        c.near.Within rule) cache shared := by
    intro key value ttl
    refine ends_setString (fun _ => ends_delete (keeps key) h fun _ _ _ hcs _ => hcs.near) ?_
    intro hsome stats
    generalize ttl.getD cache.config.defaultTtl = ttl at hsome ⊢
    dsimp only
    rw [if_pos hshared, SharedMemory.perform_reachable hreach]
    intro hwritten
    refine LocalCache.within_set hnear (hwritten key value _ ⟨some (now.expiry ttl), ?_⟩ ?_)
    · show (shared.put key _).lookup now key = _
      have hlive : SharedEntry.live now ⟨.text value, some (now.expiry ttl)⟩ = true := by
        simp only [SharedEntry.live, Option.all_some, decide_eq_true_eq]
        exact Moment.lt_expiry now hsome
      rw [SharedMemory.lookup_put, if_pos rfl, if_pos hlive]
    · simp only [Moment.le_def, Moment.expiry, localTtl, Moment.nanos_after, Duration.nanos_min]
      omega
  have hends : Ends now (operation c)
      (fun _ c s => (∀ key text deadline, s.Shows now key text →
        deadline ≤ now.after cache.config.localTtl → rule key text (some deadline)) →
        c.near.Within rule) cache shared := by
    cases c with
    | getString key => exact ends_getString (keeps key).toReadAt h fun _ _ hcs _ => hcs.near
    | setString key value ttl => exact hset key value ttl
    | fetch kind key => exact ends_fetch (keeps key) h kind fun _ _ hcs _ => hcs.near
    | store kind key value ttl => exact hset key (Envelope.encode kind value) ttl
    | delete key => exact ends_delete (keeps key) h fun _ _ _ hcs _ => hcs.near
    | contains key => exact ends_contains (keeps key).toReadAt h fun _ _ hcs _ => hcs.near
    | invalidate pattern =>
      exact ends_invalidate hshared hreach pattern fun _ => LocalCache.within_clear cache.near rule
  exact hends hafter

end TieredCache

namespace CacheState

variable {rule : EntryRule} {s : CacheState}

/-- No step changes settings, or whether there is a shared cache that answers. -/
theorem step_keeps (s : CacheState) (step : CacheStep) :
    (s.step step).cache.config = s.cache.config ∧
      (s.step step).cache.hasShared = s.cache.hasShared ∧
      ((s.step step).shared.Unreachable ↔ s.shared.Unreachable) := by
  cases step with
  | call c =>
    obtain ⟨hshared, hreach⟩ := s.cache.perform_reach c s.now s.shared
    exact ⟨s.cache.perform_config c s.now s.shared, hshared, hreach⟩
  | sweep => exact ⟨rfl, rfl, Iff.rfl⟩
  | close => exact ⟨rfl, rfl, Iff.rfl⟩
  | pass d => exact ⟨rfl, rfl, Iff.rfl⟩

/-- Time does not run backwards. -/
theorem now_le_step (s : CacheState) (step : CacheStep) : s.now ≤ (s.step step).now := by
  cases step with
  | call c =>
    have hclock : (s.step (.call c)).now = s.now := s.cache.perform_clock c s.now s.shared
    rw [hclock]
    exact Nat.le_refl _
  | sweep => exact Nat.le_refl _
  | close => exact Nat.le_refl _
  | pass d => exact Nat.le_add_right _ _

/-- After a step everything held locally is allowed by a rule that allowed it before, and that
allows, for the local limit, what the shared cache showed before the step or shows after it. -/
theorem within_step (hshared : s.cache.hasShared = true) (hreach : ¬ s.shared.Unreachable)
    (step : CacheStep) (hnear : s.cache.near.Within rule)
    (hbefore : ∀ key text deadline, s.shared.Shows s.now key text →
      deadline ≤ s.now.after s.cache.config.localTtl → rule key text (some deadline))
    (hafter : ∀ key text deadline, (s.step step).shared.Shows (s.step step).now key text →
      deadline ≤ (s.step step).now.after s.cache.config.localTtl →
      rule key text (some deadline)) :
    (s.step step).cache.near.Within rule := by
  cases step with
  | call c =>
    have hclock : (s.step (.call c)).now = s.now := s.cache.perform_clock c s.now s.shared
    rw [hclock] at hafter
    exact TieredCache.within_perform_of hshared hreach c hnear hbefore hafter
  | sweep => exact LocalCache.within_purge hnear s.now
  | close => exact LocalCache.within_close hnear
  | pass d => exact hnear

end CacheState

/-! ## Several caches -/

/-- Caches of several processes over one shared cache, and the time. -/
structure CacheGroup (n : Nat) where
  caches : Fin n → TieredCache
  now : Moment
  shared : SharedMemory

/-- What can happen to a group of caches. -/
inductive GroupMove (n : Nat) where
  /-- A step of one of the caches; the time that passes in it passes for all. -/
  | step (i : Fin n) (step : CacheStep)
  /-- A call that somebody makes to the shared cache directly. -/
  | direct (c : SharedCall)

namespace CacheGroup

variable {n : Nat}

/-- Caches that have nothing cached yet, over a shared cache. -/
def start (configs : Fin n → CacheConfig) (now : Moment) (shared : SharedMemory) : CacheGroup n :=
  ⟨fun i => .new (configs i) true, now, shared⟩

/-- What one of the caches sees of the group. -/
def part (g : CacheGroup n) (i : Fin n) : CacheState := ⟨g.caches i, g.now, g.shared⟩

/-- The group after a move. -/
def move (g : CacheGroup n) : GroupMove n → CacheGroup n
  | .step i step =>
    { caches := Function.update g.caches i ((g.part i).step step).cache
      now := ((g.part i).step step).now
      shared := ((g.part i).step step).shared }
  | .direct c => { g with shared := (g.shared.perform c g.now).2 }

/-- The group after a run. -/
def play (g : CacheGroup n) (moves : List (GroupMove n)) : CacheGroup n := moves.foldl move g

/-- Whether the shared cache shows a text under a key. -/
def Shows (g : CacheGroup n) (key text : String) : Prop := g.shared.Shows g.now key text

/-- What a cache answers to a look-up of a key. -/
def getString (g : CacheGroup n) (i : Fin n) (key : String) : Option String :=
  ((g.caches i).perform (.getString key) g.now g.shared).1.1

variable {g : CacheGroup n}

theorem play_append (g : CacheGroup n) (moves more : List (GroupMove n)) :
    g.play (moves ++ more) = (g.play moves).play more :=
  List.foldl_append ..

theorem caches_step_self (g : CacheGroup n) (i : Fin n) (step : CacheStep) :
    (g.move (.step i step)).caches i = ((g.part i).step step).cache :=
  Function.update_self ..

theorem caches_step_of_ne (g : CacheGroup n) {i j : Fin n} (hne : j ≠ i) (step : CacheStep) :
    (g.move (.step i step)).caches j = g.caches j :=
  Function.update_of_ne hne ..

/-- No move changes the settings of a cache, or whether there is a shared cache that answers. -/
theorem move_keeps (g : CacheGroup n) (m : GroupMove n) :
    (∀ i, ((g.move m).caches i).config = (g.caches i).config ∧
      ((g.move m).caches i).hasShared = (g.caches i).hasShared) ∧
      ((g.move m).shared.Unreachable ↔ g.shared.Unreachable) := by
  cases m with
  | step i step =>
    obtain ⟨hconfig, hshared, hreach⟩ := (g.part i).step_keeps step
    refine ⟨fun j => ?_, hreach⟩
    by_cases hj : j = i
    · subst hj
      rw [caches_step_self]
      exact ⟨hconfig, hshared⟩
    · rw [caches_step_of_ne g hj]
      exact ⟨rfl, rfl⟩
  | direct c => exact ⟨fun _ => ⟨rfl, rfl⟩, g.shared.unreachable_perform_iff c g.now⟩

theorem now_le_move (g : CacheGroup n) (m : GroupMove n) : g.now ≤ (g.move m).now := by
  cases m with
  | step i step => exact (g.part i).now_le_step step
  | direct c => exact Nat.le_refl _

theorem now_le_play (g : CacheGroup n) (moves : List (GroupMove n)) :
    g.now ≤ (g.play moves).now := by
  induction moves generalizing g with
  | nil => exact Nat.le_refl _
  | cons m moves ih => exact Nat.le_trans (g.now_le_move m) (ih (g.move m))

theorem now_le_of_prefix {before moves : List (GroupMove n)} (h : before <+: moves) :
    (g.play before).now ≤ (g.play moves).now := by
  obtain ⟨after, rfl⟩ := h
  rw [play_append]
  exact now_le_play _ after

/-! ### Copies after a run -/

/-- Which copies a cache may hold after a run: those of a text that the shared cache showed during
the run, for at most the local limit from then. -/
def sources (g : CacheGroup n) (i : Fin n) (moves : List (GroupMove n)) : EntryRule :=
  fun key text deadline => ∀ d ∈ deadline, ∃ before, before <+: moves ∧
    (g.play before).Shows key text ∧ d ≤ (g.play before).now.after (g.caches i).config.localTtl

theorem sources_mono {i : Fin n} {moves more : List (GroupMove n)} (h : moves <+: more)
    {key text : String} {deadline : Option Moment} (hs : g.sources i moves key text deadline) :
    g.sources i more key text deadline := by
  intro d hd
  obtain ⟨before, hbefore, hshows, hle⟩ := hs d hd
  exact ⟨before, hbefore.trans h, hshows, hle⟩

/-- What holds of a group after a run. -/
structure Sourced (g : CacheGroup n) (moves : List (GroupMove n)) : Prop where
  reach : ¬ (g.play moves).shared.Unreachable
  config : ∀ i, ((g.play moves).caches i).config = (g.caches i).config
  hasShared : ∀ i, ((g.play moves).caches i).hasShared = true
  near : ∀ i, ((g.play moves).caches i).near.Within (g.sources i moves)

theorem Sourced.move {moves : List (GroupMove n)} (h : g.Sourced moves) (m : GroupMove n) :
    g.Sourced (moves ++ [m]) := by
  have hplay : g.play (moves ++ [m]) = (g.play moves).move m := play_append g moves [m]
  have hprefix : moves <+: moves ++ [m] := List.prefix_append ..
  obtain ⟨hkeeps, hreach⟩ := (g.play moves).move_keeps m
  -- What was held before is allowed after the move as well.
  have hold : ∀ i, ((g.play moves).caches i).near.Within (g.sources i (moves ++ [m])) :=
    fun i key e he => sources_mono hprefix (h.near i key e he)
  refine ⟨?_, ?_, ?_, ?_⟩
  · rw [hplay, hreach]
    exact h.reach
  · intro i
    rw [hplay, (hkeeps i).1, h.config i]
  · intro i
    rw [hplay, (hkeeps i).2, h.hasShared i]
  · intro j
    cases m with
    | direct c =>
      rw [hplay]
      exact hold j
    | step i step =>
      by_cases hj : j = i
      · subst hj
        rw [hplay, caches_step_self]
        refine CacheState.within_step (h.hasShared j) h.reach step (hold j) ?_ ?_
        · -- A copy of what was shown before the step.
          intro key text deadline hshows hle d hd
          obtain rfl := Option.some.inj hd
          refine ⟨moves, hprefix, hshows, ?_⟩
          rw [← h.config j]
          exact hle
        · -- A copy of what is shown after the step.
          intro key text deadline hshows hle d hd
          obtain rfl := Option.some.inj hd
          refine ⟨moves ++ [.step j step], List.prefix_rfl, ?_, ?_⟩
          · rw [hplay]
            exact hshows
          · rw [hplay, ← h.config j]
            exact hle
      · rw [hplay, caches_step_of_ne _ hj]
        exact hold j

theorem sourced_play (hshared : ∀ i, (g.caches i).hasShared = true)
    (hreach : ¬ g.shared.Unreachable) (hempty : ∀ i, (g.caches i).near = .empty)
    (moves : List (GroupMove n)) : g.Sourced moves := by
  induction moves using List.reverseRecOn with
  | nil =>
    refine ⟨hreach, fun _ => rfl, hshared, fun i => ?_⟩
    show (g.caches i).near.Within _
    rw [hempty i]
    exact LocalCache.within_empty _
  | append_singleton moves m ih => exact ih.move m

/-! ### What a cache answers -/

/-- What a cache sees is a live copy, or shown by the shared cache. -/
theorem shows_of_seen {moves : List (GroupMove n)} (h : g.Sourced moves) {i : Fin n}
    (hlimit : Duration.zero < (g.caches i).config.localTtl) {key text : String}
    (hseen : ((g.play moves).caches i).seen (g.play moves).now (g.play moves).shared key =
      some text) :
    ∃ before, before <+: moves ∧ (g.play before).Shows key text ∧
      (g.play moves).now < (g.play before).now.after (g.caches i).config.localTtl := by
  cases hlookup : ((g.play moves).caches i).near.lookup (g.play moves).now key with
  | some copy =>
    obtain ⟨deadline, hsource, hlive⟩ := LocalCache.rule_of_lookup (h.near i) hlookup
    obtain ⟨before, hprefix, hshows, hle⟩ := hsource deadline rfl
    have htext : copy = text := by
      unfold TieredCache.seen at hseen
      rw [hlookup] at hseen
      exact Option.some.inj hseen
    rw [htext] at hshows
    refine ⟨before, hprefix, hshows, ?_⟩
    simp only [Moment.lt_def, Moment.le_def] at hlive hle ⊢
    omega
  | none =>
    obtain ⟨-, hshows⟩ := (TieredCache.seen_eq_some_iff hlookup h.reach).1 hseen
    refine ⟨moves, List.prefix_rfl, hshows, ?_⟩
    simp only [Duration.lt_def, Duration.zero] at hlimit
    simp only [Moment.lt_def, Moment.nanos_after]
    omega

/-- Whatever caches of one shared cache do, and whoever writes to it directly: what a look-up
answers, the shared cache showed less than the local limit ago.  So a text that it has not shown
for as long as that, no look-up answers. -/
theorem getString_fresh {configs : Fin n → CacheConfig}
    (henabled : ∀ i, (configs i).sharedEnabled = true) (now : Moment) {shared : SharedMemory}
    (hreach : ¬ shared.Unreachable) (moves : List (GroupMove n)) {i : Fin n}
    (hlimit : Duration.zero < (configs i).localTtl) (key text : String) :
    let play := (start configs now shared).play
    ((play moves).getString i key = some text →
      ∃ before, before <+: moves ∧ (play before).Shows key text ∧
        (play before).now ≤ (play moves).now ∧
        (play moves).now < (play before).now.after (configs i).localTtl) ∧
    (∀ since, since <+: moves → (play since).now.after (configs i).localTtl ≤ (play moves).now →
      (∀ later, since <+: later → later <+: moves → ¬ (play later).Shows key text) →
      (play moves).getString i key ≠ some text) := by
  intro play
  have hsourced : (start configs now shared).Sourced moves := by
    apply sourced_play _ hreach _ moves
    · intro j
      simp only [start, TieredCache.new, henabled j, Bool.and_self]
    · exact fun _ => rfl
  have hfound : (play moves).getString i key = some text →
      ∃ before, before <+: moves ∧ (play before).Shows key text ∧
        (play before).now ≤ (play moves).now ∧
        (play moves).now < (play before).now.after (configs i).localTtl := by
    intro hanswer
    unfold getString at hanswer
    rw [TieredCache.perform_getString] at hanswer
    obtain ⟨before, hprefix, hshows, hlt⟩ := shows_of_seen hsourced hlimit hanswer
    exact ⟨before, hprefix, hshows, now_le_of_prefix hprefix, hlt⟩
  refine ⟨hfound, ?_⟩
  intro since hsince hlong hgone hanswer
  obtain ⟨before, hprefix, hshows, -, hlt⟩ := hfound hanswer
  -- The text was shown either before that time, which is too long ago, or after it.
  rcases List.prefix_or_prefix_of_prefix hprefix hsince with hearlier | hlater
  · have hle : (play before).now ≤ (play since).now := now_le_of_prefix hearlier
    simp only [Moment.le_def, Moment.lt_def, Moment.nanos_after] at hle hlong hlt
    omega
  · exact hgone before hlater hprefix hshows

/-- A text that one cache stores and another one reads, and that is then deleted behind their
backs. -/
def demoOutdated (writer reader : Fin 2) : List (GroupMove 2) :=
  [.step writer (.call (.setString "k" "v" none)), .step reader (.call (.getString "k")),
    .direct (.delete "k"), .step writer (.pass (.ofSeconds 59))]

/-- The copy is still read within the limit, and it was live less than the limit ago. -/
theorem getString_fresh_outdated :
    let play := (start (fun _ : Fin 2 => .default) ⟨0⟩ .empty).play
    (play (demoOutdated 0 1)).getString 1 "k" = some "v" ∧
      ∃ before, before <+: demoOutdated 0 1 ∧ (play before).Shows "k" "v" ∧
        (play before).now ≤ (play (demoOutdated 0 1)).now ∧
        (play (demoOutdated 0 1)).now < (play before).now.after CacheConfig.default.localTtl := by
  intro play
  have hanswer : (play (demoOutdated 0 1)).getString 1 "k" = some "v" := rfl
  exact ⟨hanswer, (getString_fresh (fun _ => rfl) ⟨0⟩ (by decide) (demoOutdated 0 1) (i := 1)
    (by decide) "k" "v").1 hanswer⟩

end CacheGroup

end Bearer
