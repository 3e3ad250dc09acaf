/-
  Tasks amid incidents.

  An instance carries out one task after the other, but other things happen
  before each of its requests: time passes, the shared cache fails and comes
  back, local caches are swept or lose an entry.  A service is gone through line
  by line from one assertion about the fleet to the next, where an assertion
  must be stable: incidents do not make it false.

  Main statements: the rules `Ensures.bind`, `ensures_ask` and their like,
  `Upholds.of_confined`, and `Ensures.result`, which says what a task ends with.
-/
import Bearer.Proofs.Fleet.Caches
import Bearer.Proofs.Service.Task

namespace Bearer

/-- What can happen to a fleet before any request. -/
inductive Incident (n : Nat) where
  | event (e : Event n)
  /-- The local cache of an instance loses what it holds under a key. -/
  | evict (i : Fin n) (key : String)
  deriving DecidableEq, Repr

/-- The incidents to come: those before the next request, those before the one after it, and so
on. -/
abbrev Schedule (n : Nat) := List (List (Incident n))

/-- One step of a run: an instance carries out a task, or something happens in between. -/
inductive Act (n : Nat) where
  | carry (i : Fin n) (t : Task) (amid : Schedule n)
  | befall (e : Incident n)
  deriving DecidableEq, Repr

/-- Whether an incident lets no time pass. -/
def Incident.Timeless {n : Nat} : Incident n → Prop
  | .event (.pass ..) => False
  | _ => True

/-- Whether only incidents of some kind happen during a step. -/
def Act.Only {n : Nat} (may : Incident n → Prop) : Act n → Prop
  | .carry _ _ amid => ∀ incidents ∈ amid, ∀ e ∈ incidents, may e
  | .befall e => may e

namespace Fleet

variable {n : Nat} {α β : Type}

/-- The fleet after an incident. -/
def befall (f : MemoryFleet n) : Incident n → MemoryFleet n
  | .event e => f.happen e
  | .evict i key => f.modifyInstance i fun x =>
    { x with cache := { x.cache with near := x.cache.near.delete key } }

/-- Answers a request after the incidents that come before it. -/
def answerAmid (i : Fin n) (r : Request) (s : MemoryFleet n × Schedule n) :
    r.Reply × MemoryFleet n × Schedule n :=
  let answered := answer i r ((s.2.headD []).foldl befall s.1)
  (answered.1, answered.2, s.2.tail)

/-- Runs a service of an instance amid incidents. -/
def performAmid (i : Fin n) (s : Service α) (amid : Schedule n) (f : MemoryFleet n) :
    Except AuthError α × MemoryFleet n :=
  let ended := Prog.run (answerAmid i) s.run (f, amid)
  (ended.1, ended.2.1)

/-- What a task answers amid incidents, and the fleet after it. -/
def carry (f : MemoryFleet n) (i : Fin n) (t : Task) (amid : Schedule n) :
    Except AuthError t.Answer × MemoryFleet n :=
  f.performAmid i (t.service (f.issuer i)) amid

/-- The fleet after a step of a run. -/
def act (f : MemoryFleet n) : Act n → MemoryFleet n
  | .carry i t amid => (f.carry i t amid).2
  | .befall e => f.befall e

/-- The fleet after a run. -/
def enact (f : MemoryFleet n) (acts : List (Act n)) : MemoryFleet n := acts.foldl act f

/-- Without incidents, a service runs from beginning to end. -/
theorem performAmid_nil (i : Fin n) (s : Service α) (f : MemoryFleet n) :
    f.performAmid i s [] = f.perform i s := by
  have hrun : ∀ (p : Program (Except AuthError α)) (g : MemoryFleet n),
      Prog.run (answerAmid i) p (g, []) =
        ((p.run (answer i) g).1, (p.run (answer i) g).2, []) := by
    intro p
    induction p with
    | done value => exact fun _ => rfl
    | ask r next ih => exact fun g => ih _ _
  rw [performAmid, hrun]
  rfl

/-! ## What incidents leave alone -/

section

variable (f : MemoryFleet n) (e : Incident n) (i j : Fin n)

theorem befall_origin : (f.befall e).origin = f.origin := by
  cases e with
  | event e => exact happen_origin f e
  | evict i key => rfl

theorem befall_wall : f.wall ≤ (f.befall e).wall := by
  cases e with
  | event e => exact happen_wall f e
  | evict i key => exact Instant.le_refl _

theorem befall_clock : f.clock ≤ (f.befall e).clock := by
  cases e with
  | event e => exact happen_clock f e
  | evict i key => exact Nat.le_refl _

theorem befall_timeless {e : Incident n} (he : e.Timeless) : (f.befall e).wall = f.wall := by
  cases e with
  | event e =>
    cases e with
    | pass byWall byClock => exact absurd he id
    | _ => rfl
  | evict i key => rfl

theorem befall_revoked : (f.befall e).revoked j = f.revoked j := by
  cases e with
  | event e => exact happen_revoked f e j
  | evict i key => exact part_modifyInstance f i j Instance.revoked fun _ => rfl

theorem befall_issuer : (f.befall e).issuer j = f.issuer j := by
  cases e with
  | event e => exact happen_issuer f e j
  | evict i key => exact part_modifyInstance f i j Instance.issuer fun _ => rfl

theorem Holds.befall {f : MemoryFleet n} {j : Fin n} {rule : EntryRule} (h : f.Holds rule j)
    (e : Incident n) : (f.befall e).Holds rule j := by
  cases e with
  | event e => exact h.happen e
  | evict i key =>
    refine ⟨fun hshared => h.shared ?_, ?_⟩
    · have hkept : ((f.befall (.evict i key)).cache j).hasShared = (f.cache j).hasShared :=
        part_modifyInstance f i j (fun x => x.cache.hasShared) fun _ => rfl
      exact hkept.symm.trans hshared
    · show ((modifyInstance f i _).instances.get j).cache.near.Within rule
      rw [get_modifyInstance]
      split
      · next heq =>
        subst heq
        exact LocalCache.within_delete h.near key
      · exact h.near

end

/-! ## Assertions -/

/-- Whether an assertion stays true when an incident of some kind happens. -/
def Stable (may : Incident n → Prop) (p : MemoryFleet n → Prop) : Prop :=
  ∀ f e, may e → p f → p (f.befall e)

/-- Whether a program ends as `post` says, whatever incidents of some kind happen before its
requests. -/
def Amid (may : Incident n → Prop) (i : Fin n) (post : α → MemoryFleet n → Prop) :
    Program α → MemoryFleet n → Prop
  | .done value, f => post value f
  | .ask r next, f => ∀ incidents : List (Incident n), (∀ e ∈ incidents, may e) →
      Amid may i post (next (answer i r (incidents.foldl befall f)).1)
        (answer i r (incidents.foldl befall f)).2

/-- Whether a service that begins where `pre` holds ends as `post` says, whatever incidents of some
kind happen meanwhile. -/
def Ensures (may : Incident n → Prop) (i : Fin n) (pre : MemoryFleet n → Prop) (s : Service α)
    (post : Except AuthError α → MemoryFleet n → Prop) : Prop :=
  ∀ f, pre f → Amid may i post s.run f

variable {may : Incident n → Prop} {i : Fin n} {pre inv : MemoryFleet n → Prop} {s : Service α}
variable {next : α → Service β}

theorem Stable.foldl (hp : Stable may inv) {incidents : List (Incident n)}
    (hmay : ∀ e ∈ incidents, may e) {f : MemoryFleet n} (hf : inv f) :
    inv (incidents.foldl befall f) := by
  induction incidents generalizing f with
  | nil => exact hf
  | cons e incidents ih =>
    refine ih (fun e' he' => hmay e' (List.mem_cons_of_mem _ he')) ?_
    exact hp f e (hmay e (List.mem_cons_self ..)) hf

theorem Stable.and {inv' : MemoryFleet n → Prop} (hp : Stable may inv) (hp' : Stable may inv') :
    Stable may fun f => inv f ∧ inv' f :=
  fun f e he hf => ⟨hp f e he hf.1, hp' f e he hf.2⟩

theorem amid_bind (post : β → MemoryFleet n → Prop) (p : Program α) (g : α → Program β)
    (f : MemoryFleet n) :
    Amid may i post (p.bind g) f ↔ Amid may i (fun a => Amid may i post (g a)) p f := by
  induction p generalizing f with
  | done value => exact Iff.rfl
  | ask r next ih => exact forall_congr' fun _ => forall_congr' fun _ => ih _ _

theorem Amid.mono {post post' : α → MemoryFleet n → Prop} {p : Program α} {f : MemoryFleet n}
    (h : Amid may i post p f) (hpost : ∀ a g, post a g → post' a g) : Amid may i post' p f := by
  induction p generalizing f with
  | done value => exact hpost value f h
  | ask r next ih => exact fun incidents hmay => ih _ (h incidents hmay)

/-- A service that ensures something ends that way amid any incidents of the kind. -/
theorem Ensures.result {post : Except AuthError α → MemoryFleet n → Prop}
    (h : Ensures may i pre s post) {f : MemoryFleet n} (hf : pre f) {amid : Schedule n}
    (hmay : ∀ incidents ∈ amid, ∀ e ∈ incidents, may e) :
    post (f.performAmid i s amid).1 (f.performAmid i s amid).2 := by
  -- By induction on the program; the schedule that is left holds what it held before.
  have hrun : ∀ (p : Program (Except AuthError α)) (g : MemoryFleet n) (rest : Schedule n),
      (∀ incidents ∈ rest, ∀ e ∈ incidents, may e) → Amid may i post p g →
      post (Prog.run (answerAmid i) p (g, rest)).1 (Prog.run (answerAmid i) p (g, rest)).2.1 := by
    intro p
    induction p with
    | done value => exact fun g rest _ hp => hp
    | ask r next ih =>
      intro g rest hrest hp
      cases rest with
      | nil => exact ih _ _ [] (by simp) (hp [] (by simp))
      | cons incidents rest =>
        refine ih _ _ rest (fun later hlater => hrest later (List.mem_cons_of_mem _ hlater)) ?_
        exact hp incidents (hrest incidents (List.mem_cons_self ..))
  exact hrun s.run f amid hmay (h f hf)

/-! ## Rules -/

section

variable {post : Except AuthError α → MemoryFleet n → Prop}

theorem ensures_pure (a : α) (h : ∀ f, pre f → post (.ok a) f) :
    Ensures may i pre (pure a) post := h

/-- What has a verdict already ends with it. -/
theorem ensures_lift (verdict : Except AuthError α) (h : ∀ f, pre f → post verdict f) :
    Ensures may i pre (liftM verdict : Service α) post := by
  cases verdict <;> exact h

theorem ensures_throw (e : AuthError) (h : ∀ f, pre f → post (.error e) f) :
    Ensures may i pre (throw e) post := h

theorem Ensures.mono {pre' : MemoryFleet n → Prop}
    {post' : Except AuthError α → MemoryFleet n → Prop} (h : Ensures may i pre' s post')
    (hpre : ∀ f, pre f → pre' f) (hpost : ∀ result f, post' result f → post result f) :
    Ensures may i pre s post :=
  fun f hf => (h f (hpre f hf)).mono hpost

theorem Ensures.of_imp {pre' : MemoryFleet n → Prop} (h : Ensures may i pre' s post)
    (hpre : ∀ f, pre f → pre' f) : Ensures may i pre s post :=
  h.mono hpre fun _ _ hf => hf

theorem Ensures.imp {post' : Except AuthError α → MemoryFleet n → Prop}
    (h : Ensures may i pre s post') (hpost : ∀ result f, post' result f → post result f) :
    Ensures may i pre s post :=
  h.mono (fun _ hf => hf) hpost

/-- What an assertion says of no fleet in particular can be used as a hypothesis. -/
theorem ensures_of_and {p : Prop} (h : p → Ensures may i pre s post) :
    Ensures may i (fun f => p ∧ pre f) s post :=
  fun f hf => h hf.1 f hf.2

/-- A sequence goes on with what its first part ended with; an error ends it. -/
theorem Ensures.bind {post : Except AuthError β → MemoryFleet n → Prop}
    {mid : Except AuthError α → MemoryFleet n → Prop} (hs : Ensures may i pre s mid)
    (hnext : ∀ a, Ensures may i (mid (.ok a)) (next a) post)
    (hfail : ∀ e f, mid (.error e) f → post (.error e) f) :
    Ensures may i pre (s >>= next) post := by
  intro f hf
  refine (amid_bind post s.run _ f).2 ((hs f hf).mono fun result g hg => ?_)
  cases result with
  | ok a => exact hnext a g hg
  | error e => exact hfail e g hg

/-- A service that cannot fail is followed by the rest. -/
theorem Ensures.bind_ok {post : Except AuthError β → MemoryFleet n → Prop}
    {mid : α → MemoryFleet n → Prop}
    (hs : Ensures may i pre s fun result f => ∃ a, result = .ok a ∧ mid a f)
    (hnext : ∀ a, Ensures may i (mid a) (next a) post) : Ensures may i pre (s >>= next) post := by
  refine hs.bind (fun a f hf => ?_) fun e f hf => ?_
  · obtain ⟨a', heq, hmid⟩ := hf
    obtain rfl := Except.ok.inj heq
    exact hnext a f hmid
  · obtain ⟨a', heq, -⟩ := hf
    cases heq

/-- A service whose error is an answer, too. -/
theorem ensures_attempt {post : Except AuthError (Except AuthError α) → MemoryFleet n → Prop}
    (hs : Ensures may i pre s fun result => post (.ok result)) :
    Ensures may i pre (ExceptT.lift s.run) post :=
  fun f hf => (amid_bind post s.run _ f).2 ((hs f hf).mono fun _ _ hg => hg)

/-- What comes after an error is not done. -/
theorem ensures_throw_bind {post : Except AuthError β → MemoryFleet n → Prop} (e : AuthError)
    (h : ∀ f, pre f → post (.error e) f) :
    Ensures may i pre (throw e >>= next) post := h

end

section

variable (hpre : Stable may pre)

include hpre

theorem ensures_ask (r : Request) {post : Except AuthError r.Reply → MemoryFleet n → Prop}
    (h : ∀ f, pre f → post (.ok (answer i r f).1) (answer i r f).2) :
    Ensures may i pre (Service.ask r) post :=
  fun _ hf _ hmay => h _ (hpre.foldl hmay hf)

/-- A request that cannot fail is followed by the rest. -/
theorem ensures_ask_bind (r : Request) (mid : r.Reply → MemoryFleet n → Prop)
    {next : r.Reply → Service β} {post : Except AuthError β → MemoryFleet n → Prop}
    (h : ∀ f, pre f → mid (answer i r f).1 (answer i r f).2)
    (hnext : ∀ reply, Ensures may i (mid reply) (next reply) post) :
    Ensures may i pre (Service.ask r >>= next) post :=
  fun _ hf _ hmay => hnext _ _ (h _ (hpre.foldl hmay hf))

theorem ensures_now {post : Except AuthError Instant → MemoryFleet n → Prop}
    (h : ∀ f, pre f → post (.ok f.wall) f) : Ensures may i pre Service.now post :=
  fun _ hf _ hmay => h _ (hpre.foldl hmay hf)

theorem ensures_cache (c : CacheCall) {post : Except AuthError c.Reply → MemoryFleet n → Prop}
    (h : ∀ f, pre f → post (.ok (answer i (.cache c) f).1) (answer i (.cache c) f).2) :
    Ensures may i pre (Service.cache c) post :=
  fun _ hf _ hmay => h _ (hpre.foldl hmay hf)

theorem ensures_session (c : SessionCall)
    {post : Except AuthError c.Answer → MemoryFleet n → Prop}
    (h : ∀ f, pre f → post (f.origin.sessions.perform c).1 (answer i (.session c) f).2) :
    Ensures may i pre (Service.session c) post :=
  fun _ hf _ hmay => h _ (hpre.foldl hmay hf)

theorem ensures_revocation (c : RevocationCall)
    {post : Except AuthError c.Answer → MemoryFleet n → Prop}
    (h : ∀ f, pre f → post (f.origin.revocations.perform f.wall c).1
      (answer i (.revocation c) f).2) :
    Ensures may i pre (Service.revocation c) post :=
  fun _ hf _ hmay => h _ (hpre.foldl hmay hf)

theorem ensures_user (c : UserCall) {post : Except AuthError c.Answer → MemoryFleet n → Prop}
    (h : ∀ f, pre f → post (answer i (.user c) f).1 (answer i (.user c) f).2) :
    Ensures may i pre (Service.user c) post :=
  fun _ hf _ hmay => h _ (hpre.foldl hmay hf)

end

/-! ## Invariants -/

/-- Whether a service keeps an invariant, whatever incidents of some kind happen meanwhile. -/
abbrev Upholds (may : Incident n → Prop) (i : Fin n) (inv : MemoryFleet n → Prop)
    (s : Service α) : Prop :=
  Ensures may i inv s fun _ => inv

theorem upholds_pure (a : α) : Upholds may i inv (pure a) := ensures_pure a fun _ h => h

theorem upholds_lift (verdict : Except AuthError α) :
    Upholds may i inv (liftM verdict : Service α) :=
  ensures_lift verdict fun _ h => h

theorem Upholds.bind (hs : Upholds may i inv s) (hnext : ∀ a, Upholds may i inv (next a)) :
    Upholds may i inv (s >>= next) :=
  Ensures.bind hs hnext fun _ _ h => h

/-- A sequence may go on with what is known of the result of its first part. -/
theorem upholds_bind_of {p : α → Prop}
    (hs : Ensures may i inv s fun result g => (∀ a, result = .ok a → p a) ∧ inv g)
    (hnext : ∀ a, p a → Upholds may i inv (next a)) : Upholds may i inv (s >>= next) :=
  hs.bind (fun a => ensures_of_and fun ha => hnext a (ha a rfl)) fun _ _ hg => hg.2

/-- What follows a look at the wall clock may rely on the clock not being behind what it showed. -/
theorem upholds_now_bind {next : Instant → Service α} (hstable : Stable may inv)
    (hnext : ∀ time, Ensures may i (fun f => inv f ∧ time ≤ f.wall) (next time) fun _ => inv) :
    Upholds may i inv (Service.now >>= next) :=
  ensures_ask_bind hstable .now (fun time f => inv f ∧ time ≤ f.wall)
    (fun _ hf => ⟨hf, Instant.le_refl _⟩) hnext

theorem stable_shown (time : Instant) : Stable may fun f : MemoryFleet n => time ≤ f.wall :=
  fun f e _ hle => Instant.le_trans hle (befall_wall f e)

/-- What all requests of some kind keep, a service that makes no others keeps. -/
theorem Upholds.of_confined {allowed : Request → Prop} (hstable : Stable may inv)
    (hs : Service.Confined allowed s)
    (hkeeps : ∀ r, allowed r → ∀ f, inv f → inv (answer i r f).2) : Upholds may i inv s := by
  have hprogram : ∀ (p : Program (Except AuthError α)) (h : History) (f : MemoryFleet n),
      Program.Obeys (fun _ => allowed) (fun _ _ => True) h p → inv f →
        Amid may i (fun _ => inv) p f := by
    intro p
    induction p with
    | done value => exact fun _ _ _ hf => hf
    | ask r next ih =>
      intro h f hobeys hf incidents hmay
      exact ih _ _ _ (hobeys.2 _) (hkeeps r hobeys.1 _ (hstable.foldl hmay hf))
  exact fun f hf => hprogram s.run [] f (hs []) hf

end Fleet

end Bearer
