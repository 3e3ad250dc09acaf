/-
  Runs of a fleet.

  A run is a list of moves: an instance executes an operation from beginning to
  end, or something happens beside that.  Time only passes forward, by each of
  the clocks as much as it likes; the shared cache fails and comes back; a local
  cache is swept.  The operations keep the rules of conduct, so an invariant of
  all runs is one that every allowed request and every event preserve.

  Main statements: `Preserved.establish`, `Preserved.execute` and
  `Preserved.play`.
-/
import Bearer.Fleet.Basic
import Bearer.Proofs.Cache.Tiered
import Bearer.Proofs.Service.Facade
import Bearer.Proofs.Store.Revocation
import Bearer.Proofs.Store.Session
import Bearer.Proofs.Time.Instant

namespace Bearer

/-- A fleet whose stores of record and shared cache are kept in memory. -/
abbrev MemoryFleet (n : Nat) := Fleet MemoryOrigin SharedMemory n

/-- What happens to a fleet beside its operations. -/
inductive Event (n : Nat) where
  /-- Time passes on the wall clock and on the monotonic clock. -/
  | pass (byWall byClock : Duration)
  /-- The shared cache goes offline or comes back, and calls to it time out or no longer do. -/
  | outage (offline timingOut : Bool)
  /-- An instance sweeps its local cache. -/
  | sweep (i : Fin n)
  deriving DecidableEq, Repr

/-- One move of a run. -/
inductive Move (n : Nat) where
  | execute (i : Fin n) (o : Operation)
  | event (e : Event n)
  deriving DecidableEq, Repr

namespace Fleet

variable {n : Nat} {i j : Fin n}

section

variable {σ ρ : Type}

/-- The cache of an instance. -/
def cache (f : Fleet σ ρ n) (i : Fin n) : TieredCache := (f.instances.get i).cache

/-- The issuer of an instance. -/
def issuer (f : Fleet σ ρ n) (i : Fin n) : Issuer := (f.instances.get i).issuer

/-- The revocations that an instance remembers. -/
def revoked (f : Fleet σ ρ n) (i : Fin n) : RevokedTokens := (f.instances.get i).revoked

end

/-- The fleet after an event.  The wall clock stops at the end of the calendar. -/
def happen (f : MemoryFleet n) : Event n → MemoryFleet n
  | .pass byWall byClock =>
    { f with
      wall := (f.wall.deadline? byWall).getD f.wall
      clock := f.clock.after byClock }
  | .outage offline timingOut => { f with shared := { f.shared with offline, timingOut } }
  | .sweep i => f.modifyInstance i fun x =>
    { x with cache := { x.cache with near := x.cache.near.purge f.clock } }

/-- What an operation answers, and the fleet after it. -/
def execute (f : MemoryFleet n) (i : Fin n) (o : Operation) : o.Result × MemoryFleet n :=
  f.perform i (o.service (f.issuer i))

/-- The fleet after a move. -/
def move (f : MemoryFleet n) : Move n → MemoryFleet n
  | .execute i o => (f.execute i o).2
  | .event e => f.happen e

/-- The fleet after a run. -/
def play (f : MemoryFleet n) (moves : List (Move n)) : MemoryFleet n := moves.foldl move f

@[simp] theorem play_nil (f : MemoryFleet n) : f.play [] = f := rfl

@[simp] theorem play_cons (f : MemoryFleet n) (m : Move n) (moves : List (Move n)) :
    f.play (m :: moves) = (f.move m).play moves := rfl

theorem play_append (f : MemoryFleet n) (moves more : List (Move n)) :
    f.play (moves ++ more) = (f.play moves).play more :=
  List.foldl_append ..

/-- Whether an instance executes an operation in a run, and the fleet just before. -/
def Executes (f : MemoryFleet n) (moves : List (Move n)) (g : MemoryFleet n) (i : Fin n)
    (o : Operation) : Prop :=
  ∃ before after, moves = before ++ .execute i o :: after ∧ g = f.play before

/-! ## The ids drawn -/

section

variable {σ ρ : Type} {f g g' : Fleet σ ρ n} {tokenId : String}

/-- Whether an id has been drawn. -/
def HasDrawn (f : Fleet σ ρ n) (tokenId : String) : Prop :=
  ∃ number ≤ f.minted, tokenId = f.ids.id number

/-- Whether a fleet draws ids from the same supply as another one, and has drawn no fewer. -/
structure Onward (f g : Fleet σ ρ n) : Prop where
  ids : g.ids = f.ids
  minted : f.minted ≤ g.minted

theorem Onward.refl (f : Fleet σ ρ n) : f.Onward f := ⟨rfl, Nat.le_refl _⟩

theorem Onward.trans (h : f.Onward g) (h' : g.Onward g') : f.Onward g' :=
  ⟨h'.ids.trans h.ids, Nat.le_trans h.minted h'.minted⟩

theorem HasDrawn.mono (h : f.HasDrawn tokenId) (hg : f.Onward g) : g.HasDrawn tokenId := by
  obtain ⟨number, hle, rfl⟩ := h
  exact ⟨number, Nat.le_trans hle hg.minted, by rw [hg.ids]⟩

/-- As no id is drawn twice, an id has been drawn exactly if its turn has come. -/
theorem hasDrawn_id_iff {number : Nat} : f.HasDrawn (f.ids.id number) ↔ number ≤ f.minted := by
  constructor
  · rintro ⟨earlier, hle, hid⟩
    rwa [f.ids.injective hid]
  · exact fun hle => ⟨number, hle, rfl⟩

end

/-! ## What a request leaves alone -/

section

variable {σ ρ : Type}

theorem get_modifyInstance (f : Fleet σ ρ n) (i j : Fin n) (g : Instance → Instance) :
    (f.modifyInstance i g).instances.get j =
      if i = j then g (f.instances.get i) else f.instances.get j := by
  show (f.instances.set i (g f.instances[i]))[j] =
    if i = j then g f.instances[i] else f.instances[j]
  simp only [Fin.getElem_fin, Vector.getElem_set, Fin.val_inj]

/-- A part that an update keeps in one instance, it keeps in all. -/
theorem part_modifyInstance {α : Type} (f : Fleet σ ρ n) (i j : Fin n) {g : Instance → Instance}
    (part : Instance → α) (hkeeps : ∀ x, part (g x) = part x) :
    part ((f.modifyInstance i g).instances.get j) = part (f.instances.get j) := by
  rw [get_modifyInstance]
  split
  · next h => rw [hkeeps, h]
  · rfl

variable [Origin σ] [SharedBackend ρ]

theorem answer_wall (f : Fleet σ ρ n) (i : Fin n) (r : Request) :
    (answer i r f).2.wall = f.wall := by
  cases r <;> rfl

theorem answer_onward (f : Fleet σ ρ n) (i : Fin n) (r : Request) :
    f.Onward (answer i r f).2 := by
  cases r with
  | freshTokenId => exact ⟨rfl, Nat.le_succ _⟩
  | _ => exact ⟨rfl, Nat.le_refl _⟩

/-- Only a cache call of an instance changes its cache. -/
theorem answer_cache (f : Fleet σ ρ n) (i j : Fin n) (r : Request) :
    (answer i r f).2.cache j =
      match r with
      | .cache c =>
        if i = j then ((f.cache i).perform c f.clock f.shared).1.2
        else f.cache j
      | _ => f.cache j := by
  cases r with
  | cache c =>
    show ((modifyInstance _ i _).instances.get j).cache = _
    rw [get_modifyInstance]
    split <;> rfl
  | remember tokenId expiresAt => exact part_modifyInstance f i j Instance.cache fun _ => rfl
  | _ => rfl

/-- Only an instance that is to remember a revocation does so. -/
theorem answer_revoked (f : Fleet σ ρ n) (i j : Fin n) (r : Request) :
    (answer i r f).2.revoked j =
      match r with
      | .remember tokenId expiresAt =>
        if i = j then (f.revoked i).remember f.wall tokenId expiresAt
        else f.revoked j
      | _ => f.revoked j := by
  cases r with
  | cache c => exact part_modifyInstance _ i j Instance.revoked fun _ => rfl
  | remember tokenId expiresAt =>
    show ((modifyInstance _ i _).instances.get j).revoked = _
    rw [get_modifyInstance]
    split <;> rfl
  | _ => rfl

theorem answer_issuer (f : Fleet σ ρ n) (i j : Fin n) (r : Request) :
    (answer i r f).2.issuer j = f.issuer j := by
  cases r with
  | cache c => exact part_modifyInstance _ i j Instance.issuer fun _ => rfl
  | remember tokenId expiresAt => exact part_modifyInstance f i j Instance.issuer fun _ => rfl
  | _ => rfl

end

/-- The monotonic clock stands still during an operation. -/
theorem answer_clock (f : MemoryFleet n) (i : Fin n) (r : Request) :
    (answer i r f).2.clock = f.clock := by
  cases r with
  | cache c => exact (f.cache i).perform_clock c f.clock f.shared
  | _ => rfl

theorem answer_shared (f : MemoryFleet n) (i : Fin n) (r : Request) :
    (answer i r f).2.shared =
      match r with
      | .cache c => ((f.cache i).perform c f.clock f.shared).2.2
      | _ => f.shared := by
  cases r <;> rfl

theorem answer_revocations (f : MemoryFleet n) (i : Fin n) (r : Request) :
    (answer i r f).2.origin.revocations =
      match r with
      | .revocation c => (f.origin.revocations.perform f.wall c).2
      | _ => f.origin.revocations := by
  cases r <;> rfl

theorem answer_sessions (f : MemoryFleet n) (i : Fin n) (r : Request) :
    (answer i r f).2.origin.sessions =
      match r with
      | .session c => (f.origin.sessions.perform c).2
      | _ => f.origin.sessions := by
  cases r <;> rfl

theorem answer_users (f : MemoryFleet n) (i : Fin n) (r : Request) :
    (answer i r f).2.origin.users =
      match r with
      | .user c => (f.origin.users.perform f.wall c).2
      | _ => f.origin.users := by
  cases r <;> rfl

/-- No request leads to sessions under wrong users, or to two users with one token. -/
theorem coherent_answer {f : MemoryFleet n} (h : f.origin.sessions.Coherent) (i : Fin n)
    (r : Request) : (answer i r f).2.origin.sessions.Coherent := by
  rw [answer_sessions]
  cases r with
  | session c => exact h.perform c
  | _ => exact h

/-- No request leads to revocations under wrong ids. -/
theorem keyed_answer {f : MemoryFleet n} (h : f.origin.revocations.Keyed) (i : Fin n)
    (r : Request) : (answer i r f).2.origin.revocations.Keyed := by
  rw [answer_revocations]
  cases r with
  | revocation c => exact RevocationStore.keyed_perform h _ c
  | _ => exact h

theorem happen_origin (f : MemoryFleet n) (e : Event n) : (f.happen e).origin = f.origin := by
  cases e <;> rfl

theorem happen_revoked (f : MemoryFleet n) (e : Event n) (j : Fin n) :
    (f.happen e).revoked j = f.revoked j := by
  cases e with
  | sweep i => exact part_modifyInstance f i j Instance.revoked fun _ => rfl
  | _ => rfl

theorem happen_onward (f : MemoryFleet n) (e : Event n) : f.Onward (f.happen e) := by
  cases e <;> exact ⟨rfl, Nat.le_refl _⟩

/-- What every request keeps, a service keeps. -/
theorem perform_keeps {α : Type} {P : MemoryFleet n → Prop}
    (step : ∀ f r, P f → P (answer i r f).2) {f : MemoryFleet n} (h : P f) (s : Service α) :
    P (f.perform i s).2 := by
  -- By induction on the program, of which every request is one step.
  have hrun : ∀ {β : Type} (p : Program β) (g : MemoryFleet n), P g →
      P (p.run (answer i) g).2 := by
    intro β p
    induction p with
    | done value => exact fun g hg => hg
    | ask r next ih => exact fun g hg => ih _ _ (step g r hg)
  exact hrun _ f h

theorem perform_wall {α : Type} (f : MemoryFleet n) (i : Fin n) (s : Service α) :
    (f.perform i s).2.wall = f.wall :=
  perform_keeps (P := fun g => g.wall = f.wall)
    (fun g r hg => (answer_wall g i r).trans hg) rfl s

theorem perform_onward {α : Type} (f : MemoryFleet n) (i : Fin n) (s : Service α) :
    f.Onward (f.perform i s).2 :=
  perform_keeps (P := f.Onward) (fun g r hg => hg.trans (answer_onward g i r)) (.refl f) s

/-- What every request keeps, an operation keeps. -/
theorem execute_keeps {P : MemoryFleet n → Prop}
    (step : ∀ f r, P f → P (answer i r f).2) {f : MemoryFleet n} (h : P f) (o : Operation) :
    P (f.execute i o).2 :=
  perform_keeps step h _

theorem execute_wall (f : MemoryFleet n) (i : Fin n) (o : Operation) :
    (f.execute i o).2.wall = f.wall :=
  perform_wall f i _

theorem execute_clock (f : MemoryFleet n) (i : Fin n) (o : Operation) :
    (f.execute i o).2.clock = f.clock :=
  execute_keeps (P := fun g => g.clock = f.clock)
    (fun g r hg => (answer_clock g i r).trans hg) rfl o

theorem execute_issuer (f : MemoryFleet n) (i j : Fin n) (o : Operation) :
    (f.execute i o).2.issuer j = f.issuer j :=
  execute_keeps (P := fun g => g.issuer j = f.issuer j)
    (fun g r hg => (answer_issuer g i j r).trans hg) rfl o

theorem happen_issuer (f : MemoryFleet n) (e : Event n) (j : Fin n) :
    (f.happen e).issuer j = f.issuer j := by
  cases e with
  | sweep i => exact part_modifyInstance f i j Instance.issuer fun _ => rfl
  | _ => rfl

theorem move_issuer (f : MemoryFleet n) (m : Move n) (j : Fin n) :
    (f.move m).issuer j = f.issuer j := by
  cases m with
  | execute i o => exact execute_issuer f i j o
  | event e => exact happen_issuer f e j

/-- Issuers do not change during a run. -/
theorem play_issuer (f : MemoryFleet n) (moves : List (Move n)) (j : Fin n) :
    (f.play moves).issuer j = f.issuer j := by
  induction moves generalizing f with
  | nil => rfl
  | cons m moves ih => rw [play_cons, ih, move_issuer]

/-- What every request and every event keep, a run keeps. -/
theorem play_keeps {P : MemoryFleet n → Prop} (step : ∀ f i r, P f → P (answer i r f).2)
    (event : ∀ f e, P f → P (f.happen e)) {f : MemoryFleet n} (h : P f) (moves : List (Move n)) :
    P (f.play moves) := by
  induction moves generalizing f with
  | nil => exact h
  | cons m moves ih =>
    apply ih
    cases m with
    | execute i o => exact execute_keeps (fun g r => step g i r) h o
    | event e => exact event f e h

/-! ## Clocks -/

theorem happen_wall (f : MemoryFleet n) (e : Event n) : f.wall ≤ (f.happen e).wall := by
  cases e with
  | pass byWall byClock =>
    show f.wall ≤ (f.wall.deadline? byWall).getD f.wall
    cases hdeadline : f.wall.deadline? byWall with
    | none => exact Instant.le_refl _
    | some later => exact Instant.le_deadline hdeadline
  | _ => exact Instant.le_refl _

theorem happen_clock (f : MemoryFleet n) (e : Event n) : f.clock ≤ (f.happen e).clock := by
  cases e with
  | pass byWall byClock => exact Nat.le_add_right _ _
  | _ => exact Nat.le_refl _

/-- Neither clock goes back during a run. -/
theorem play_clocks (f : MemoryFleet n) (moves : List (Move n)) :
    f.wall ≤ (f.play moves).wall ∧ f.clock ≤ (f.play moves).clock := by
  induction moves generalizing f with
  | nil => exact ⟨Instant.le_refl _, Nat.le_refl _⟩
  | cons m moves ih =>
    obtain ⟨hwall, hclock⟩ := ih (f.move m)
    cases m with
    | execute i o =>
      rw [move, execute_wall] at hwall
      rw [move, execute_clock] at hclock
      exact ⟨hwall, hclock⟩
    | event e =>
      exact ⟨Instant.le_trans (happen_wall f e) hwall, Nat.le_trans (happen_clock f e) hclock⟩

end Fleet

/-! ## What a service asks -/

namespace Fleet

variable {α : Type} {f : MemoryFleet n} {o : Operation}

/-- What a service of an instance asks and is answered. -/
def asked (f : MemoryFleet n) (i : Fin n) (s : Service α) : History :=
  s.run.history (answer i) f []

/-- What an operation asks and is answered. -/
def history (f : MemoryFleet n) (i : Fin n) (o : Operation) : History :=
  f.asked i (o.service (f.issuer i))

/-- What every request that a service makes keeps, the service keeps; meanwhile the wall clock
stands still.  The service ends as its history says. -/
theorem perform_of {s : Service α} {post : History → Except AuthError α → Prop}
    (inv : History → MemoryFleet n → Prop) (made : Exchange → Prop)
    (hobeys : Service.Obeys (conduct (f.issuer i) o) post [] s)
    (step : ∀ {h : History} {g : MemoryFleet n} {r : Request}, inv h g →
      g.wall = f.wall → g.issuer i = f.issuer i → (∀ t, h.Told t → t = f.wall) →
      conduct (f.issuer i) o h r → made ⟨r, (answer i r g).1⟩ →
      inv (⟨r, (answer i r g).1⟩ :: h) (answer i r g).2)
    (hinv : inv [] f) (hmade : ∀ e ∈ f.asked i s, made e) :
    inv (f.asked i s) (f.perform i s).2 ∧ (∀ t, (f.asked i s).Told t → t = f.wall) ∧
      post (f.asked i s) (f.perform i s).1 := by
  have htoldFirst : ∀ t, History.Told [] t → t = f.wall := by simp [History.Told]
  have hrun := hobeys.run_of (answer i) (fun h g => inv h g ∧
    (∀ t, History.Told h t → t = f.wall) ∧ g.wall = f.wall ∧ g.issuer i = f.issuer i)
    ?_ ⟨hinv, htoldFirst, rfl, rfl⟩ hmade
  · obtain ⟨⟨hinv', htold, -, -⟩, hpost⟩ := hrun
    exact ⟨hinv', htold, hpost⟩
  · rintro h g r ⟨hg, htold, hwall, hissuer⟩ hconduct hfirst
    refine ⟨step hg hwall hissuer htold hconduct hfirst, ?_, (answer_wall g i r).trans hwall,
      (answer_issuer g i i r).trans hissuer⟩
    intro t ht
    rcases List.mem_cons.1 ht with heq | ht
    · cases heq
      exact hwall
    · exact htold t ht

/-- Whatever an operation asks, it was allowed to ask. -/
theorem conduct_of_mem {e : Exchange} (he : e ∈ f.history i o) :
    ∃ h : History, (∀ e' ∈ h, e' ∈ f.history i o) ∧ conduct (f.issuer i) o h e.request := by
  have hrun := perform_of (fun h _ => ∀ e ∈ h, ∃ earlier : History, (∀ e' ∈ earlier, e' ∈ h) ∧
    conduct (f.issuer i) o earlier e.request) (fun _ => True) (Operation.obeys (f.issuer i) o) ?_
    (by simp) (fun _ _ => trivial)
  · exact hrun.1 e he
  · intro h g r hinv _ _ _ hconduct _ e he
    rcases List.mem_cons.1 he with rfl | he
    · exact ⟨h, fun e' he' => List.mem_cons_of_mem _ he', hconduct⟩
    · obtain ⟨earlier, hsub, hallowed⟩ := hinv e he
      exact ⟨earlier, fun e' he' => List.mem_cons_of_mem _ (hsub e' he'), hallowed⟩

theorem told_history {t : Instant} (ht : (f.history i o).Told t) : t = f.wall :=
  (perform_of (fun _ _ => True) (fun _ => True) (Operation.obeys (f.issuer i) o)
    (fun _ _ _ _ _ _ => trivial) trivial (fun _ _ => trivial)).2.1 t ht

end Fleet

/-! ## Invariants of all runs -/

open Fleet

/-- A property of fleets that every allowed request of certain operations and every event preserve,
and a property of the exchanges of an instance that happen while it holds, at the time that the wall
clock shows. -/
structure Preserved {n : Nat} (may : Issuer → Operation → Prop) (inv : MemoryFleet n → Prop)
    (fact : Fin n → Instant → Exchange → Prop) : Prop where
  request : ∀ {f : MemoryFleet n} {i : Fin n} {h : History} {r : Request} {o : Operation},
    may (f.issuer i) o → inv f → (∀ e ∈ h, fact i f.wall e) →
    (∀ t, h.Told t → t = f.wall) → conduct (f.issuer i) o h r →
    inv (answer i r f).2 ∧ fact i f.wall ⟨r, (answer i r f).1⟩
  event : ∀ {f : MemoryFleet n} (e : Event n), inv f → inv (f.happen e)

namespace Preserved

variable {n : Nat} {may : Issuer → Operation → Prop} {inv : MemoryFleet n → Prop}
variable {fact : Fin n → Instant → Exchange → Prop}

/-- Two invariants together. -/
theorem and {may' : Issuer → Operation → Prop} {inv' : MemoryFleet n → Prop}
    {fact' : Fin n → Instant → Exchange → Prop} (p : Preserved may inv fact)
    (p' : Preserved may' inv' fact') :
    Preserved (fun issuer o => may issuer o ∧ may' issuer o)
      (fun f : MemoryFleet n => inv f ∧ inv' f)
      (fun i wall e => fact i wall e ∧ fact' i wall e) where
  request hmay hinv hfacts htold hconduct := by
    have h := p.request hmay.1 hinv.1 (fun e he => (hfacts e he).1) htold hconduct
    have h' := p'.request hmay.2 hinv.2 (fun e he => (hfacts e he).2) htold hconduct
    exact ⟨⟨h.1, h'.1⟩, h.2, h'.2⟩
  event e hinv := ⟨p.event e hinv.1, p'.event e hinv.2⟩

/-- An operation keeps an invariant and has an answer for a reason found among facts.  If one
request brings about another property, which all later ones keep, an operation that has made it
ends with that property. -/
theorem establish (p : Preserved may inv fact) (established : MemoryFleet n → Prop)
    (brings : Request)
    (begins : ∀ {f : MemoryFleet n} {i : Fin n}, inv f → established (answer i brings f).2)
    (keeps : ∀ {f : MemoryFleet n} {i : Fin n} {h : History} {r : Request}
      {o : Operation}, inv f → (∀ e ∈ h, fact i f.wall e) →
      (∀ t, h.Told t → t = f.wall) → conduct (f.issuer i) o h r →
      established f → established (answer i r f).2)
    {f : MemoryFleet n} (hinv : inv f) {i : Fin n} {o : Operation}
    (hmay : may (f.issuer i) o) :
    inv (f.execute i o).2 ∧ ∃ h : History, (∀ e ∈ h, fact i f.wall e) ∧
      (∀ t, h.Told t → t = f.wall) ∧
      o.Reason (f.issuer i) h (f.execute i o).1 ∧
      ((∃ reply, ⟨brings, reply⟩ ∈ h) → established (f.execute i o).2) := by
  have hunmade : (∃ reply, (⟨brings, reply⟩ : Exchange) ∈ ([] : History)) → established f := by
    simp
  have hrun := perform_of (fun h g => inv g ∧ (∀ e ∈ h, fact i f.wall e) ∧
    ((∃ reply, ⟨brings, reply⟩ ∈ h) → established g)) (fun _ => True)
    (Operation.obeys (f.issuer i) o) ?_ ⟨hinv, by simp, hunmade⟩ (fun _ _ => trivial)
  · obtain ⟨⟨hinv', hfacts, hestablished⟩, htold, hreason⟩ := hrun
    exact ⟨hinv', _, hfacts, htold, hreason, hestablished⟩
  · rintro h g r ⟨hg, hfacts, hestablished⟩ hwall hissuer htold hconduct -
    -- The invariant speaks of the fleet as it is now, with the same issuers and wall clock.
    rw [← hissuer] at hconduct hmay
    rw [← hwall] at hfacts htold ⊢
    obtain ⟨hg', hfact⟩ := p.request hmay hg hfacts htold hconduct
    refine ⟨hg', List.forall_mem_cons.2 ⟨hfact, hfacts⟩, ?_⟩
    -- The property begins with the request that brings it, and is kept by later ones.
    rintro ⟨reply, hreply⟩
    rcases List.mem_cons.1 hreply with heq | hreply
    · cases heq
      exact begins hg
    · exact keeps hg hfacts htold hconduct (hestablished ⟨reply, hreply⟩)

/-- An invariant holds after a service that behaves as an operation does, and its history holds
facts. -/
theorem perform {α : Type} (p : Preserved may inv fact) {f : MemoryFleet n} (hinv : inv f)
    {i : Fin n} {o : Operation} (hmay : may (f.issuer i) o) {s : Service α}
    {post : History → Except AuthError α → Prop}
    (hobeys : Service.Obeys (conduct (f.issuer i) o) post [] s) :
    inv (f.perform i s).2 ∧ (∀ e ∈ f.asked i s, fact i f.wall e) ∧
      (∀ t, (f.asked i s).Told t → t = f.wall) ∧ post (f.asked i s) (f.perform i s).1 := by
  have hrun := perform_of (fun h g => inv g ∧ ∀ e ∈ h, fact i f.wall e) (fun _ => True) hobeys ?_
    ⟨hinv, by simp⟩ (fun _ _ => trivial)
  · obtain ⟨⟨hinv', hfacts⟩, htold, hpost⟩ := hrun
    exact ⟨hinv', hfacts, htold, hpost⟩
  · rintro h g r ⟨hg, hfacts⟩ hwall hissuer htold hconduct -
    rw [← hissuer] at hconduct hmay
    rw [← hwall] at hfacts htold ⊢
    obtain ⟨hg', hfact⟩ := p.request hmay hg hfacts htold hconduct
    exact ⟨hg', List.forall_mem_cons.2 ⟨hfact, hfacts⟩⟩

/-- An invariant holds after an operation, which has an answer for a reason found among facts. -/
theorem execute (p : Preserved may inv fact) {f : MemoryFleet n} (hinv : inv f) {i : Fin n}
    {o : Operation} (hmay : may (f.issuer i) o) :
    inv (f.execute i o).2 ∧ ∃ h : History, (∀ e ∈ h, fact i f.wall e) ∧
      (∀ t, h.Told t → t = f.wall) ∧
      o.Reason (f.issuer i) h (f.execute i o).1 := by
  obtain ⟨hinv', hfacts, htold, hreason⟩ := p.perform hinv hmay (Operation.obeys (f.issuer i) o)
  exact ⟨hinv', _, hfacts, htold, hreason⟩

/-- An invariant holds after a run. -/
theorem play (p : Preserved may inv fact) {f : MemoryFleet n} (hinv : inv f)
    {moves : List (Move n)}
    (hmay : ∀ i o, .execute i o ∈ moves → may (f.issuer i) o) : inv (f.play moves) := by
  induction moves generalizing f with
  | nil => exact hinv
  | cons m moves ih =>
    apply ih
    · cases m with
      | execute i o => exact (p.execute hinv (hmay i o (List.mem_cons_self ..))).1
      | event e => exact p.event e hinv
    · intro i o ho
      rw [move_issuer]
      exact hmay i o (List.mem_cons_of_mem _ ho)

end Preserved

/-! ## Stores that work -/

/-- What an exchange says about revocations of record that are kept in memory: they do not fail. -/
def WorkingFact : Exchange → Prop
  | ⟨.revocation _, .error _⟩ => False
  | _ => True

theorem preserved_working {n : Nat} :
    Preserved (fun _ _ => True) (fun _ : MemoryFleet n => True) (fun _ _ => WorkingFact) where
  request := by
    intro f i h r o _ _ _ _ _
    refine ⟨trivial, ?_⟩
    cases r with
    | revocation c => cases c <;> trivial
    | _ => trivial
  event _ _ := trivial

theorem not_failed {h : History} (hfacts : ∀ e ∈ h, WorkingFact e) (e : AuthError) :
    ¬ h.Failed e := by
  rintro ⟨c, hc⟩
  have hfact := hfacts _ hc
  cases c <;> exact hfact

/-- A token that is accepted is good by itself. -/
theorem Fleet.verify_of_accepted {n : Nat} {f : MemoryFleet n} {j : Fin n} {token : String}
    {found : Claims} (hok : (f.execute j (.verify token)).1 = .ok found) :
    (f.issuer j).config.verify .access f.wall token = .ok found := by
  obtain ⟨-, h, -, htold, hreason⟩ :=
    preserved_working.execute (f := f) trivial (i := j) (o := .verify token) trivial
  rw [hok] at hreason
  obtain ⟨⟨time, hnow, hverify⟩, -⟩ := hreason
  rw [← htold time hnow]
  exact hverify

end Bearer
