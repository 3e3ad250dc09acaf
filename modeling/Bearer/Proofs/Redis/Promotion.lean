/-
  Local copies of what a Redis server answers.

  A look-up that misses the local tier asks for a text and for the milliseconds
  that it has left, and keeps a copy.  A number of milliseconds limits the copy,
  and zero means that there is none; a negative number is taken for a text that
  has no end, and only the local limit holds.  That is what a server says with
  minus one, but with minus two it says that the key has gone in between.

  A copy is not kept for longer by anything that happens later on, short of
  writing the key or copying it again.

  Main statements: `Redis.perform_getWithTtl`, `TieredCache.within_after` and
  `TieredCache.copy_within_limit`.
-/
import Bearer.Proofs.Cache.Backend
import Bearer.Proofs.Redis.Invalidate

namespace Bearer

/-! ## What a look-up answers -/

namespace Redis

theorem Reply.isError_of_optionalText? {r : Reply} {text : Option String}
    (h : r.optionalText? = some text) : r.isError = false := by
  cases r with
  | error message => cases h
  | _ => rfl

theorem Reply.isError_of_int? {r : Reply} {n : Int} (h : r.int? = some n) : r.isError = false := by
  cases r with
  | error message => cases h
  | _ => rfl

/-- Two replies to a look-up, a text and the milliseconds that it has left, make its answer. -/
theorem perform_getWithTtl (s : Settings) (key : String) (now : Moment) {value millis : Reply}
    {text : String} {left : Int} (hvalue : value.optionalText? = some (some text))
    (hmillis : millis.int? = some left) (rest : List Reply) (sent : List (List String)) :
    SharedBackend.perform (.getWithTtl key) now (Store.mk s ⟨value :: millis :: rest, sent⟩) =
      (.ok (some (text, remaining left)), (now,
        Store.mk s ⟨rest, sent ++ [["GET", s.key key], ["PTTL", s.key key]]⟩)) := by
  have hnoError : [value, millis].any Reply.isError = false := by
    simp [Reply.isError_of_optionalText? hvalue, Reply.isError_of_int? hmillis]
  have hexchange : Peer.exchange ⟨value :: millis :: rest, sent⟩
      [["GET", s.key key], ["PTTL", s.key key]] =
        (some [value, millis], ⟨rest, sent ++ [["GET", s.key key], ["PTTL", s.key key]]⟩) := by
    simp [Peer.exchange]
  have hget : (get : Link (Moment × Peer)).run (now, ⟨value :: millis :: rest, sent⟩) =
      (.ok (now, ⟨value :: millis :: rest, sent⟩), (now, ⟨value :: millis :: rest, sent⟩)) := rfl
  refine perform_store (.getWithTtl key) ?_
  rw [perform, exchange, run_bind, hget]
  dsimp only
  rw [hexchange]
  dsimp only
  rw [if_neg (by rw [hnoError]; exact Bool.false_ne_true), hvalue, hmillis]
  rfl

end Redis

namespace TieredCache

/-- The time for which a text is kept locally that has some milliseconds left, or no end if the
number is negative. -/
def copyTime (config : CacheConfig) (left : Int) : Duration :=
  if 0 ≤ left then min (.ofMillis left.toNat) config.localTtl else config.localTtl

theorem localTtl_remaining (cache : TieredCache) (left : Int) :
    cache.localTtl ((Redis.remaining left).getD cache.config.localTtl) =
      copyTime cache.config left := by
  unfold Redis.remaining copyTime localTtl
  split
  · rfl
  · exact congrArg Duration.mk (Nat.min_self _)

end TieredCache

/-! ## What happens later on -/

/-- The rule that a key shows one text, until some moment at the latest. -/
def EntryRule.copy (key text : String) (last : Moment) : EntryRule :=
  fun other found deadline => other = key → found = text ∧ ∀ d ∈ deadline, d ≤ last

/-- What can happen to a cache: a call that a server answers, a sweep, or that it is closed. -/
inductive CacheEvent where
  | call (c : CacheCall) (now : Moment) (server : Redis.Store)
  | sweep (now : Moment)
  | close

namespace TieredCache

variable {cache : TieredCache} {key text : String} {last : Moment} {rule : EntryRule}

/-- The cache after a step. -/
def step (cache : TieredCache) : CacheEvent → TieredCache
  | .call c now server => (cache.perform c now server).1.2
  | .sweep now => { cache with near := cache.near.purge now }
  | .close => cache.close

/-- The cache after some steps. -/
def after (cache : TieredCache) (steps : List CacheEvent) : TieredCache := steps.foldl step cache

/-- Whether a step neither writes a key nor copies what a server answers under it. -/
def Spares (cache : TieredCache) (key : String) : CacheEvent → Prop
  | .call (.setString other _ _) _ _ | .call (.store _ other _ _) _ _ => other ≠ key
  | .call (.getString other) now server => other = key →
    cache.near.lookup now key ≠ none ∨ (cache.perform (.getString other) now server).1.1 = none
  | .call (.fetch kind other) now server => other = key →
    cache.near.lookup now key ≠ none ∨ (cache.perform (.fetch kind other) now server).1.1 = none
  | _ => True

theorem frees_copy {other : String} (hne : other ≠ key) : Frees (.copy key text last) other :=
  fun _ _ heq => absurd heq hne

/-- A look-up that copies nothing keeps any rule. -/
theorem within_getString_of_spared {now : Moment} {server : Redis.Store}
    (h : cache.near.Within rule)
    (hspared : cache.near.lookup now key ≠ none ∨
      (cache.perform (.getString key) now server).1.1 = none) :
    (cache.perform (.getString key) now server).1.2.near.Within rule := by
  have hevict := LocalCache.within_evict h now key
  have hfinishes : Finishes (getString key) (fun found c _ =>
      cache.near.lookup now key ≠ none ∨ found = none → c.near.Within rule) cache
      (now, server) := by
    refine finishes_getString (fun _ _ _ _ => hevict) (fun text remaining stats hmiss _ _ => ?_)
      (fun _ _ _ _ _ => hevict) fun _ _ _ _ => hevict
    rintro (hfound | hnone)
    · exact absurd hmiss hfound
    · cases hnone
  exact hfinishes hspared

/-- After a removal nothing is left under the key, so that no copy can be kept for too long. -/
theorem within_delete_copy (cache : TieredCache) {state : Moment × Redis.Store} :
    Finishes (delete key) (fun _ c _ => c.near.Within (.copy key text last)) cache state := by
  have hany : cache.near.Within fun _ _ _ => True := fun _ _ _ => trivial
  have hdelete : (cache.near.delete key).Within (.copy key text last) :=
    LocalCache.within_delete_of hany fun _ _ _ hne _ heq => absurd heq hne
  refine finishes_delete fun _ _ => ?_
  split
  · exact hdelete
  · exact hdelete

theorem within_fetch_of_spared {now : Moment} {server : Redis.Store} {kind : Kind}
    (h : cache.near.Within (.copy key text last))
    (hspared : cache.near.lookup now key ≠ none ∨
      (cache.perform (.fetch kind key) now server).1.1 = none) :
    (cache.perform (.fetch kind key) now server).1.2.near.Within (.copy key text last) := by
  have hevict := LocalCache.within_evict h now key
  have hfinishes : Finishes (fetch kind key) (fun found c _ =>
      cache.near.lookup now key ≠ none ∨ found = none →
        c.near.Within (.copy key text last)) cache (now, server) := by
    refine finishes_fetch kind (finishes_getString (fun found stats _ => ?_)
      (fun found remaining stats hmiss _ _ => ?_) (fun _ _ _ _ _ => hevict)
      fun _ _ _ _ => hevict)
    · dsimp only
      split
      · exact fun _ => hevict
      · exact (within_delete hevict).mono fun _ _ _ hc _ => hc
    · dsimp only
      split
      · rintro (hfound | hnone)
        · exact absurd hmiss hfound
        · cases hnone
      · exact (within_delete_copy _).mono fun _ _ _ hc _ => hc
  exact hfinishes hspared

/-- A step that spares a key keeps the limit of its copy. -/
theorem within_step {step : CacheEvent} (h : cache.near.Within (.copy key text last))
    (hspared : cache.Spares key step) : (cache.step step).near.Within (.copy key text last) := by
  cases step with
  | sweep now => exact LocalCache.within_purge h now
  | close => exact LocalCache.within_close h
  | call c now server =>
    have hbrings : (∀ other, c.brings? = some other → other ≠ key) →
        (cache.perform c now server).1.2.near.Within (.copy key text last) := fun hne =>
      within_perform_of_frees (fun other hother => frees_copy (hne other hother)) h now server
    cases c with
    | setString other value ttl => exact hbrings fun _ heq => Option.some.inj heq ▸ hspared
    | store kind other value ttl => exact hbrings fun _ heq => Option.some.inj heq ▸ hspared
    | delete other => exact hbrings nofun
    | contains other => exact hbrings nofun
    | invalidate pattern => exact hbrings nofun
    | getString other =>
      by_cases hkey : other = key
      · subst hkey
        exact within_getString_of_spared h (hspared rfl)
      · exact hbrings fun _ heq => Option.some.inj heq ▸ hkey
    | fetch kind other =>
      by_cases hkey : other = key
      · subst hkey
        exact within_fetch_of_spared h (hspared rfl)
      · exact hbrings fun _ heq => Option.some.inj heq ▸ hkey

/-- Whether every one of some steps spares a key, when it is taken. -/
def SparesAll (key : String) : TieredCache → List CacheEvent → Prop
  | _, [] => True
  | cache, step :: steps => cache.Spares key step ∧ SparesAll key (cache.step step) steps

theorem within_after {steps : List CacheEvent} (h : cache.near.Within (.copy key text last))
    (hspared : SparesAll key cache steps) :
    (cache.after steps).near.Within (.copy key text last) := by
  induction steps generalizing cache with
  | nil => exact h
  | cons step steps ih =>
    obtain ⟨hstep, hsteps⟩ := hspared
    exact ih (within_step h hstep) hsteps

/-! ## Copies -/

/-- A look-up that misses and finds a text shows nothing under the key but a copy, for no longer
than it may be kept. -/
theorem within_getString_of_miss {now : Moment} {server : Redis.Store} {left : Int}
    (hshared : cache.hasShared = true) (hmiss : cache.near.lookup now key = none)
    {server' : Redis.Store}
    (hreply : SharedBackend.perform (.getWithTtl key) now server =
      (.ok (some (text, Redis.remaining left)), (now, server'))) :
    Finishes (getString key) (fun found c _ => found = some text ∧
      c.near.Within (.copy key text (now.after (copyTime cache.config left)))) cache
      (now, server) := by
  refine finishes_getString (fun found stats hfound => ?_)
    (fun found remaining stats _ _ hfound => ?_) (fun stats _ _ hnot => ?_) fun stats _ hoff => ?_
  · rw [hmiss] at hfound
    cases hfound
  · dsimp only at hfound ⊢
    rw [hreply] at hfound ⊢
    cases hfound
    rw [localTtl_remaining]
    -- The copy takes the place of any entry that was there, so nothing need be known of those.
    have hany : (cache.near.evict now key).Within fun _ _ _ => True := fun _ _ _ => trivial
    refine ⟨rfl, LocalCache.within_set_of hany (fun other _ _ hne _ heq => absurd heq hne)
      fun _ => ⟨rfl, fun d hd => ?_⟩⟩
    obtain rfl := Option.mem_some.1 hd
    exact Nat.add_le_add_left (Nat.min_le_left _ _) _
  · exact absurd (congrArg Prod.fst hreply) (hnot _)
  · rw [hshared] at hoff
    cases hoff

/-- A text that is found with some milliseconds left is answered, and as long as the key is neither
written nor copied again, whatever else happens, no other text shows under it and this one not
beyond what is left and the local limit.  A text with nothing left does not show at all. -/
theorem copy_within_limit (hshared : cache.hasShared = true) (s : Redis.Settings) {now : Moment}
    (hmiss : cache.near.lookup now key = none) {value millis : Redis.Reply} {left : Int}
    (hvalue : value.optionalText? = some (some text)) (hmillis : millis.int? = some left)
    (replies : List Redis.Reply) (sent : List (List String)) :
    let ended := cache.perform (.getString key) now
      (Redis.Store.mk s ⟨value :: millis :: replies, sent⟩)
    ended.1.1 = some text ∧
      ∀ steps, SparesAll key ended.1.2 steps → ∀ later,
        (∀ found, (ended.1.2.after steps).near.lookup later key = some found →
          found = text ∧ later < now.after (copyTime cache.config left)) ∧
        (left = 0 → now ≤ later → (ended.1.2.after steps).near.lookup later key = none) := by
  intro ended
  obtain ⟨hanswer, hcopy⟩ : ended.1.1 = some text ∧
      ended.1.2.near.Within (.copy key text (now.after (copyTime cache.config left))) :=
    within_getString_of_miss hshared hmiss
      (Redis.perform_getWithTtl s key now hvalue hmillis replies sent)
  refine ⟨hanswer, fun steps hspared later => ?_⟩
  have hshown (found : String)
      (hfound : (ended.1.2.after steps).near.lookup later key = some found) :
      found = text ∧ later < now.after (copyTime cache.config left) := by
    obtain ⟨deadline, hrule, hlive⟩ :=
      LocalCache.rule_of_lookup (within_after hcopy hspared) hfound
    obtain ⟨htext, hlast⟩ := hrule rfl
    exact ⟨htext, Nat.lt_of_lt_of_le hlive (hlast deadline rfl)⟩
  refine ⟨hshown, ?_⟩
  rintro rfl hle
  refine Option.eq_none_iff_forall_ne_some.2 fun found hfound => ?_
  have hlate : later < now.after (copyTime cache.config 0) := (hshown found hfound).2
  have hnone : copyTime cache.config 0 = .zero := congrArg Duration.mk (Nat.zero_min _)
  rw [hnone] at hlate
  exact Nat.not_lt.2 hle hlate

/-- A server that has a text with some milliseconds left. -/
def demoServer (left : Int) : Redis.Store := ⟨⟨"tv", .ofSeconds 1⟩, ⟨[.bulk "v", .int left], []⟩⟩

theorem copy_within_limit_demo :
    (TieredCache.new .default true).hasShared = true ∧
      (TieredCache.new .default true).near.lookup ⟨0⟩ "k" = none ∧
      (Redis.Reply.bulk "v").optionalText? = some (some "v") ∧
      (Redis.Reply.int 1500).int? = some 1500 ∧
      let ended := (TieredCache.new .default true).perform (.getString "k") ⟨0⟩ (demoServer 1500)
      let steps := [.sweep ⟨7⟩, .call (.getString "k") ⟨8⟩ (demoServer (-1))]
      ended.1.1 = some "v" ∧ SparesAll "k" ended.1.2 steps ∧
        (∀ later, (∀ found, (ended.1.2.after steps).near.lookup later "k" = some found →
          found = "v" ∧ later < Moment.after ⟨0⟩ (copyTime .default 1500)) ∧
          ((1500 : Int) = 0 → (⟨0⟩ : Moment) ≤ later →
            (ended.1.2.after steps).near.lookup later "k" = none)) ∧
        (ended.1.2.after steps).near.lookup ⟨1499999999⟩ "k" = some "v" ∧
        (ended.1.2.after steps).near.lookup ⟨1500000000⟩ "k" = none := by
  have hshared : (TieredCache.new .default true).hasShared = true := rfl
  have hmiss : (TieredCache.new .default true).near.lookup ⟨0⟩ "k" = none := rfl
  have hvalue : (Redis.Reply.bulk "v").optionalText? = some (some "v") := rfl
  have hmillis : (Redis.Reply.int 1500).int? = some 1500 := rfl
  have hcopy := copy_within_limit hshared ⟨"tv", .ofSeconds 1⟩ hmiss hvalue hmillis [] []
  have hspared : SparesAll "k" ((TieredCache.new .default true).perform (.getString "k") ⟨0⟩
      (demoServer 1500)).1.2 [.sweep ⟨7⟩, .call (.getString "k") ⟨8⟩ (demoServer (-1))] :=
    ⟨trivial, fun _ => .inl (by decide +kernel), trivial⟩
  exact ⟨hshared, hmiss, hvalue, hmillis, hcopy.1, hspared, hcopy.2 _ hspared, by decide +kernel,
    by decide +kernel⟩

/-- A key that the server says has gone leaves a copy for as long as the local limit allows. -/
theorem copy_of_gone_key :
    let ended := (TieredCache.new .default true).perform (.getString "k") ⟨0⟩ (demoServer (-2))
    ended.1.1 = some "v" ∧ ended.1.2.near.lookup ⟨0⟩ "k" = some "v" ∧
      ended.1.2.near.lookup ⟨59999999999⟩ "k" = some "v" := by
  decide +kernel

end TieredCache

end Bearer
