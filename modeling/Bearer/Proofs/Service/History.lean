/-
  What a service has asked so far.

  A service decides what to ask next by what it has been told.  Its history is
  the list of its exchanges; a property of the service says which requests a
  history allows and what the history is like when the service ends.  The
  property holds for every reply, so it can be used wherever the service runs:
  alone from beginning to end, or one request at a time between others.

  Main statements: the rules `obeys_pure`, `obeys_lift`, `obeys_bind` and
  `obeys_ask`, by which a service is gone through line by line, and
  `Program.Obeys.run`, which carries an invariant through a whole run.
-/
import Bearer.Service.Request

namespace Bearer

/-- A request and what it was answered. -/
structure Exchange where
  request : Request
  reply : request.Reply

/-- The exchanges of a service, the latest first. -/
abbrev History := List Exchange

/-- Which requests are allowed after a history. -/
abbrev Manners := History → Request → Prop

namespace Program

variable {α β σ : Type} {manners manners' : Manners}

/-- Whether a program, after a history, asks only what it may and ends as `post` says, whatever it
is answered. -/
def Obeys (manners : Manners) (post : History → α → Prop) : History → Program α → Prop
  | h, .done value => post h value
  | h, .ask r next => manners h r ∧ ∀ reply, Obeys manners post (⟨r, reply⟩ :: h) (next reply)

theorem Obeys.mono {post post' : History → α → Prop} {p : Program α} {h : History}
    (hmanners : ∀ h r, manners h r → manners' h r) (hpost : ∀ h a, post h a → post' h a)
    (hp : Obeys manners post h p) : Obeys manners' post' h p := by
  induction p generalizing h with
  | done value => exact hpost h value hp
  | ask r next ih => exact ⟨hmanners h r hp.1, fun reply => ih reply (hp.2 reply)⟩

theorem Obeys.imp {post post' : History → α → Prop} {p : Program α} {h : History}
    (hp : Obeys manners post h p) (hpost : ∀ h a, post h a → post' h a) :
    Obeys manners post' h p :=
  hp.mono (fun _ _ hr => hr) hpost

/-- What a program ends with does not hang on what else it may ask. -/
theorem Obeys.anyhow {post : History → α → Prop} {p : Program α} {h : History}
    (hp : Obeys manners post h p) : Obeys (fun _ _ => True) post h p :=
  hp.mono (fun _ _ _ => trivial) fun _ _ ha => ha

theorem obeys_bind (post : History → β → Prop) (p : Program α) (f : α → Program β)
    (h : History) :
    Obeys manners post h (p.bind f) ↔
      Obeys manners (fun h' a => Obeys manners post h' (f a)) h p := by
  induction p generalizing h with
  | done value => exact Iff.rfl
  | ask r next ih => exact and_congr_right fun _ => forall_congr' fun reply => ih reply _

/-- What has been exchanged stays in the history. -/
theorem Obeys.grows {post : History → α → Prop} {p : Program α} {h : History}
    (hp : Obeys manners post h p) : Obeys manners (fun h' a => h <:+ h' ∧ post h' a) h p := by
  have hgrows : ∀ (q : Program α) (g : History), h <:+ g → Obeys manners post g q →
      Obeys manners (fun h' a => h <:+ h' ∧ post h' a) g q := by
    intro q
    induction q with
    | done value => exact fun g hg hvalue => ⟨hg, hvalue⟩
    | ask r next ih =>
      exact fun g hg hask => ⟨hask.1, fun reply =>
        ih reply _ (hg.trans (List.suffix_cons ..)) (hask.2 reply)⟩
  exact hgrows p h (List.suffix_refl h) hp

/-- Two properties of one program together. -/
theorem Obeys.and {post post' : History → α → Prop} {p : Program α} {h : History}
    (hp : Obeys manners post h p) (hp' : Obeys manners' post' h p) :
    Obeys (fun h r => manners h r ∧ manners' h r) (fun h a => post h a ∧ post' h a) h p := by
  induction p generalizing h with
  | done value => exact ⟨hp, hp'⟩
  | ask r next ih => exact ⟨⟨hp.1, hp'.1⟩, fun reply => ih reply (hp.2 reply) (hp'.2 reply)⟩

/-- What holds of all exchanges that are allowed holds of all that there have been. -/
theorem Obeys.records {fact : Exchange → Prop} {post : History → α → Prop} {p : Program α}
    {h : History} (hp : Obeys manners post h p)
    (hfact : ∀ h r, manners h r → ∀ reply, fact ⟨r, reply⟩) (hh : ∀ x ∈ h, fact x) :
    Obeys manners (fun h' a => (∀ x ∈ h', fact x) ∧ post h' a) h p := by
  induction p generalizing h with
  | done value => exact ⟨hh, hp⟩
  | ask r next ih =>
    exact ⟨hp.1, fun reply =>
      ih reply (hp.2 reply) (List.forall_mem_cons.2 ⟨hfact h r hp.1 reply, hh⟩)⟩

/-- What a program asks and is answered when it runs, on top of an earlier history. -/
def history (answer : (r : Request) → σ → r.Reply × σ) : Program α → σ → History → History
  | .done _, _, h => h
  | .ask r next, s, h =>
    history answer (next (answer r s).1) (answer r s).2 (⟨r, (answer r s).1⟩ :: h)

theorem mem_history (answer : (r : Request) → σ → r.Reply × σ) (p : Program α) (s : σ)
    {h : History} {e : Exchange} (he : e ∈ h) : e ∈ p.history answer s h := by
  induction p generalizing s h with
  | done value => exact he
  | ask r next ih => exact ih _ _ (List.mem_cons_of_mem _ he)

/-- What is asked does not depend on an earlier history, which stays below. -/
theorem history_append (answer : (r : Request) → σ → r.Reply × σ) (p : Program α) (s : σ)
    (h : History) : history answer p s h = history answer p s [] ++ h := by
  induction p generalizing s h with
  | done value => rfl
  | ask r next ih =>
    rw [history, history, ih, ih _ _ [_], List.append_assoc]
    rfl

/-- A sequence asks what its parts ask, one after the other. -/
theorem history_bind (answer : (r : Request) → σ → r.Reply × σ) (p : Program α)
    (f : α → Program β) (s : σ) (h : History) :
    history answer (p.bind f) s h =
      history answer (f (p.run answer s).1) (p.run answer s).2 (history answer p s h) := by
  induction p generalizing s h with
  | done value => rfl
  | ask r next ih => exact ih _ _ _

/-- What every allowed request preserves that is one of those asked, a whole run preserves, and the
run ends as the program says. -/
theorem Obeys.run_of {post : History → α → Prop} (answer : (r : Request) → σ → r.Reply × σ)
    (inv : History → σ → Prop) {asked : Exchange → Prop}
    (step : ∀ h s r, inv h s → manners h r → asked ⟨r, (answer r s).1⟩ →
      inv (⟨r, (answer r s).1⟩ :: h) (answer r s).2)
    {p : Program α} {h : History} {s : σ} (hp : Obeys manners post h p) (hinv : inv h s)
    (hasked : ∀ e ∈ p.history answer s h, asked e) :
    inv (p.history answer s h) (p.run answer s).2 ∧
      post (p.history answer s h) (p.run answer s).1 := by
  induction p generalizing h s with
  | done value => exact ⟨hinv, hp⟩
  | ask r next ih =>
    have hfirst : asked ⟨r, (answer r s).1⟩ :=
      hasked _ (mem_history answer (next (answer r s).1) (answer r s).2 (List.mem_cons_self ..))
    exact ih _ (hp.2 _) (step h s r hinv hp.1 hfirst) hasked

/-- What every allowed request preserves, a whole run preserves, and the run ends as the program
says. -/
theorem Obeys.run {post : History → α → Prop} (answer : (r : Request) → σ → r.Reply × σ)
    (inv : History → σ → Prop)
    (step : ∀ h s r, inv h s → manners h r →
      inv (⟨r, (answer r s).1⟩ :: h) (answer r s).2)
    {p : Program α} {h : History} {s : σ} (hp : Obeys manners post h p) (hinv : inv h s) :
    inv (p.history answer s h) (p.run answer s).2 ∧
      post (p.history answer s h) (p.run answer s).1 :=
  hp.run_of answer inv (fun h s r hs hr _ => step h s r hs hr) hinv (fun _ _ => trivial)

end Program

namespace Service

variable {α β : Type} {manners : Manners} {h : History}

/-- Whether a service, after a history, asks only what it may and ends as `post` says. -/
abbrev Obeys (manners : Manners) (post : History → Except AuthError α → Prop) (h : History)
    (s : Service α) : Prop :=
  Program.Obeys manners post h s.run

/-! ## Rules -/

theorem obeys_pure (post : History → Except AuthError α → Prop) (a : α) :
    Obeys manners post h (pure a) ↔ post h (.ok a) := Iff.rfl

/-- What has a verdict already ends with it. -/
theorem obeys_lift (post : History → Except AuthError α → Prop) (verdict : Except AuthError α) :
    Obeys manners post h (liftM verdict) ↔ post h verdict := by
  cases verdict <;> exact Iff.rfl

/-- A sequence goes on with what its first part ended with; an error ends it. -/
theorem obeys_bind (post : History → Except AuthError β → Prop) (s : Service α)
    (f : α → Service β) :
    Obeys manners post h (s >>= f) ↔
      Obeys manners (fun h' result => match result with
        | .ok a => Obeys manners post h' (f a)
        | .error e => post h' (.error e)) h s := by
  -- A service is a program whose results are verdicts; only the good ones go on.
  refine (Program.obeys_bind post s.run _ h).trans ?_
  constructor
  · refine Program.Obeys.mono (fun _ _ h => h) fun h' result hr => ?_
    cases result <;> exact hr
  · refine Program.Obeys.mono (fun _ _ h => h) fun h' result hr => ?_
    cases result <;> exact hr

theorem obeys_ask (r : Request) (post : History → Except AuthError r.Reply → Prop) :
    Obeys manners post h (ask r) ↔
      manners h r ∧ ∀ reply, post (⟨r, reply⟩ :: h) (.ok reply) := Iff.rfl

theorem obeys_now (post : History → Except AuthError Instant → Prop) :
    Obeys manners post h now ↔
      manners h .now ∧ ∀ time : Instant, post (⟨.now, time⟩ :: h) (.ok time) := Iff.rfl

theorem obeys_remember (tokenId : String) (expiresAt : Instant)
    (post : History → Except AuthError Unit → Prop) :
    Obeys manners post h (ask (.remember tokenId expiresAt)) ↔
      manners h (.remember tokenId expiresAt) ∧
        ∀ reply : Unit, post (⟨.remember tokenId expiresAt, reply⟩ :: h) (.ok reply) := Iff.rfl

theorem obeys_isRemembered (tokenId : String) (post : History → Except AuthError Bool → Prop) :
    Obeys manners post h (ask (.isRemembered tokenId)) ↔
      manners h (.isRemembered tokenId) ∧
        ∀ reply : Bool, post (⟨.isRemembered tokenId, reply⟩ :: h) (.ok reply) := Iff.rfl

theorem obeys_cache (c : CacheCall) (post : History → Except AuthError c.Reply → Prop) :
    Obeys manners post h (cache c) ↔
      manners h (.cache c) ∧ ∀ reply : c.Reply, post (⟨.cache c, reply⟩ :: h) (.ok reply) := Iff.rfl

theorem obeys_session (c : SessionCall) (post : History → Except AuthError c.Answer → Prop) :
    Obeys manners post h (session c) ↔
      manners h (.session c) ∧ ∀ reply : c.Reply, post (⟨.session c, reply⟩ :: h) reply := Iff.rfl

theorem obeys_revocation (c : RevocationCall)
    (post : History → Except AuthError c.Answer → Prop) :
    Obeys manners post h (revocation c) ↔
      manners h (.revocation c) ∧
        ∀ reply : c.Reply, post (⟨.revocation c, reply⟩ :: h) reply := Iff.rfl

theorem obeys_user (c : UserCall) (post : History → Except AuthError c.Answer → Prop) :
    Obeys manners post h (user c) ↔
      manners h (.user c) ∧ ∀ reply : c.Reply, post (⟨.user c, reply⟩ :: h) reply := Iff.rfl

/-- A service whose error is an answer, too. -/
theorem obeys_attempt (s : Service α)
    (post : History → Except AuthError (Except AuthError α) → Prop) :
    Obeys manners post h (ExceptT.lift s.run) ↔
      Obeys manners (fun h' result => post h' (.ok result)) h s := by
  refine (Program.obeys_bind post s.run _ h).trans ?_
  exact Iff.rfl

end Service

end Bearer
