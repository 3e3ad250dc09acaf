/-
  Where the sessions come from that the session service caches and answers.

  A call of the session service goes in steps: each is a call to a store or to
  the cache, together with the looks at the wall clock that go with it.  Those
  are the ones before it, whose time it is given, and, once something has been
  found cached, the one by which that is judged.

  The session service caches a session only as the record has answered it or has
  just been told it, and never for longer than a session may be cached.  What a
  look-up by user answers is what the cache or the record has answered it, as of
  a look at the clock in the same step.

  Main statements: `SessionTask.heeds` and its part for a look-up, `heeds_get`, and
  `SessionTask.confined`.
-/
import Bearer.Proofs.Cache.Key
import Bearer.Proofs.Service.Task

namespace Bearer

/-- How far a service has come with a step. -/
inductive Pace where
  /-- It is between two steps. -/
  | between
  /-- It has looked at the wall clock for the call that it is about to make. -/
  | looked
  /-- It has found something cached and is about to look whether that has ended. -/
  | found
  deriving DecidableEq, Repr

/-- How far a service has come after one more exchange. -/
def Pace.next (p : Pace) : Exchange → Pace
  | ⟨.now, _⟩ => if p = .found then .between else .looked
  | ⟨.cache (.fetch ..), some _⟩ => .found
  | _ => .between

namespace History

/-- How far a service has come after all of its exchanges. -/
def pace : History → Pace
  | [] => .between
  | e :: h => Pace.next (pace h) e

/-- Whether the record has answered a session, or has made it. -/
def Recorded (h : History) (s : Session) : Prop :=
  (∃ user time, ⟨.session (.findByUser user time), .ok (some s)⟩ ∈ h) ∨
    ∃ user token expiresAt createdAt,
      ⟨.session (.upsert user token expiresAt createdAt), .ok s⟩ ∈ h

theorem Recorded.mono {h h' : History} {s : Session} (hs : h.Recorded s)
    (hsuffix : h <:+ h') : h'.Recorded s := by
  rcases hs with ⟨user, time, hmem⟩ | ⟨user, token, expiresAt, createdAt, hmem⟩
  · exact Or.inl ⟨user, time, hsuffix.mem hmem⟩
  · exact Or.inr ⟨user, token, expiresAt, createdAt, hsuffix.mem hmem⟩

/-- Whether a look-up by user that answers a session has read it in one step with a look at the
clock at which the session had not ended: from the cache, and then looked, or from the record for
which it had looked. -/
def Explains (h : History) (user : UserId) (s : Session) : Prop :=
  (∃ (time : Instant) (earlier : History), h = ⟨.now, time⟩ ::
      ⟨.cache (.fetch .session (Key.session user)), some s⟩ :: earlier ∧
      time < s.expiresAt) ∨
    ∃ (time : Instant) (later earlier : History), h = later ++
      ⟨.session (.findByUser user time), .ok (some s)⟩ :: ⟨.now, time⟩ :: earlier ∧
      earlier.pace = .between

end History

/-- What the session service may ask: it caches what is on record, under its user's key and for no
longer than a session may be cached. -/
def Sessions.manners : Manners
  | h, .cache (.store .session key s ttl) =>
    key = Key.session s.user ∧ (∃ d, ttl = some d ∧ d ≤ Key.sessionLifetime) ∧ h.Recorded s
  | _, r => r.OfSessions

/-- What is in the history of a call of the session service that has ended. -/
def SessionTask.Reason : (t : SessionTask) → History → Except AuthError t.Answer → Prop
  | .get user, h, result => ∀ s, result = .ok s → h.Explains user s
  | _, _, _ => True

open Service

namespace Sessions

variable {h : History} {user : UserId} {s : Session}

theorem heeds_invalidate {post : History → Except AuthError Unit → Prop}
    (next : ∀ e : Exchange, e.request = .cache (.delete (Key.session user)) →
      post (e :: h) (.ok ())) :
    Obeys manners post h (invalidate user) := by
  rw [invalidate, obeys_bind, obeys_cache]
  exact ⟨trivial, fun reply => next _ rfl⟩

/-- What is on record may be cached. -/
theorem heeds_keep (hrecorded : h.Recorded s) {post : History → Except AuthError Unit → Prop}
    (next : ∀ h' : History, h <:+ h' → post h' (.ok ())) : Obeys manners post h (keep s) := by
  rw [keep, obeys_bind, obeys_now]
  refine ⟨trivial, fun time => ?_⟩
  have hnow : h <:+ (⟨.now, time⟩ :: h : History) := List.suffix_cons ..
  dsimp only
  split
  · next ttl httl =>
    rw [obeys_bind, obeys_cache]
    refine ⟨⟨rfl, ⟨ttl, rfl, ?_⟩, hrecorded.mono hnow⟩, fun reply => ?_⟩
    · exact Key.sessionTtl_le httl
    · exact next _ (hnow.trans (List.suffix_cons ..))
  · exact heeds_invalidate fun e _ => next _ (hnow.trans (List.suffix_cons ..))

/-- A session that is loaded has been read from the record in one step with a look at the clock. -/
theorem heeds_load (hpace : h.pace = .between) (ended : Bool)
    {post : History → Except AuthError Session → Prop}
    (next : ∀ h' s, h'.Explains user s → post h' (.ok s)) (fail : ∀ h' e, post h' (.error e)) :
    Obeys manners post h (load user ended) := by
  rw [load, obeys_bind, obeys_now]
  refine ⟨trivial, fun time => ?_⟩
  dsimp only
  rw [obeys_bind, obeys_session]
  refine ⟨trivial, fun reply => ?_⟩
  match reply with
  | .error e => exact fail _ e
  | .ok none => exact fail _ _
  | .ok (some s) =>
    dsimp only
    rw [obeys_bind]
    refine heeds_keep (Or.inl ⟨user, time, List.mem_cons_self ..⟩) ?_
    rintro h' ⟨later, rfl⟩
    exact next _ s (Or.inr ⟨time, later, h, rfl, hpace⟩)

/-- What a look-up answers, its history explains. -/
theorem heeds_get {post : History → Except AuthError Session → Prop}
    (next : ∀ h' s, h'.Explains user s → post h' (.ok s)) (fail : ∀ h' e, post h' (.error e)) :
    Obeys manners post h (get user) := by
  rw [get, obeys_bind, obeys_cache]
  refine ⟨trivial, fun reply => ?_⟩
  match reply with
  | none => exact heeds_load rfl false next fail
  | some s =>
    dsimp only
    rw [obeys_bind, obeys_now]
    refine ⟨trivial, fun time => ?_⟩
    dsimp only
    split
    · -- The ended session is dropped in a step of its own, and the record is asked in the next one.
      rw [obeys_bind]
      refine heeds_invalidate fun e he => heeds_load ?_ true next fail
      obtain ⟨request, reply⟩ := e
      subst he
      rfl
    · next hlive =>
      rw [Bool.not_eq_true, Session.expired_eq_false_iff] at hlive
      exact next _ s (Or.inl ⟨time, h, rfl, hlive⟩)

theorem heeds_writeToken (expected : Option String) (token : String) (ttl : Duration)
    {post : History → Except AuthError Unit → Prop} (next : ∀ h' result, post h' result) :
    Obeys manners post h (writeToken user expected token ttl) := by
  rw [writeToken, obeys_bind, obeys_now]
  refine ⟨trivial, fun time => ?_⟩
  dsimp only
  rw [obeys_bind, obeys_lift]
  cases deadline time ttl with
  | error e => exact next _ _
  | ok expiresAt =>
    dsimp only
    rw [obeys_bind, obeys_session]
    refine ⟨trivial, fun reply => ?_⟩
    match reply with
    | .error e => exact next _ _
    | .ok false => exact next _ _
    | .ok true => exact heeds_invalidate fun e _ => next _ _

end Sessions

open Sessions

/-- Every call of the session service keeps its manners, and a look-up has read what it answers. -/
theorem SessionTask.heeds (t : SessionTask) (h : History) :
    Obeys manners t.Reason h t.service := by
  cases t with
  | create user token expiresAt =>
    refine (obeys_bind _ _ _).2 ⟨trivial, fun createdAt => ?_⟩
    refine (obeys_bind _ _ _).2 ⟨trivial, fun reply => ?_⟩
    cases reply with
    | error e => exact trivial
    | ok s =>
      refine (obeys_bind _ _ _).2 (heeds_keep (Or.inr ?_) fun _ _ => trivial)
      refine ⟨user, token, expiresAt, createdAt, ?_⟩
      exact List.mem_cons_self ..
  | get user =>
    refine heeds_get (fun h' s hexplains s' heq => ?_) fun h' e s heq => ?_
    · obtain rfl := Except.ok.inj heq
      exact hexplains
    · cases heq
  | getByToken token =>
    refine (obeys_bind _ _ _).2 ⟨trivial, fun time => ?_⟩
    refine (obeys_bind _ _ _).2 ⟨trivial, fun reply => ?_⟩
    match reply with
    | .error e => exact trivial
    | .ok none => exact trivial
    | .ok (some s) => exact trivial
  | update user token ttl => exact heeds_writeToken none token ttl fun _ _ => trivial
  | rotate user old token ttl => exact heeds_writeToken (some old) token ttl fun _ _ => trivial
  | delete user =>
    refine (obeys_bind _ _ _).2 ⟨trivial, fun reply => ?_⟩
    cases reply with
    | error e => exact trivial
    | ok found => exact heeds_invalidate fun _ _ => trivial
  | purge =>
    refine (obeys_bind _ _ _).2 ⟨trivial, fun time => ?_⟩
    exact ⟨trivial, fun reply => trivial⟩

theorem Sessions.ofSessions_of_manners {h : History} {r : Request} (hr : manners h r) :
    r.OfSessions := by
  cases r with
  | cache c =>
    cases c with
    | store kind key value ttl =>
      cases kind with
      | session => exact hr.1
      | _ => exact hr
    | _ => exact hr
  | _ => exact hr

/-- The session service makes only requests of its own. -/
theorem SessionTask.confined (t : SessionTask) : Confined Request.OfSessions t.service :=
  fun h => (t.heeds h).mono (fun _ _ => ofSessions_of_manners) fun _ _ _ => trivial

end Bearer
