/-
  Tasks as data.

  Beside the operations of the facade, an instance can be asked for the calls of
  the session service and of the revocation service one by one, and to
  invalidate cache keys.  All of that is one type of tasks.

  Each of the two services keeps to its own part: the session service asks for
  no revocations and caches nothing but sessions, and the revocation service
  asks for no sessions and caches none.

  Main statements: `RevocationTask.confined` and `Issuer.confined_revoke`.
-/
import Bearer.Proofs.Service.History
import Bearer.Proofs.Service.Operation

namespace Bearer

/-- A call of the session service. -/
inductive SessionTask where
  | create (user : UserId) (token : String) (expiresAt : Instant)
  | get (user : UserId)
  | getByToken (token : String)
  | update (user : UserId) (token : String) (ttl : Duration)
  | rotate (user : UserId) (old token : String) (ttl : Duration)
  | delete (user : UserId)
  | purge
  deriving DecidableEq, Repr

/-- What a call of the session service answers if it succeeds. -/
abbrev SessionTask.Answer : SessionTask → Type
  | create .. | get _ | getByToken _ => Session
  | update .. | rotate .. | delete _ => Unit
  | purge => Nat

/-- The service of a call of the session service. -/
def SessionTask.service : (t : SessionTask) → Service t.Answer
  | create user token expiresAt => Sessions.create user token expiresAt
  | get user => Sessions.get user
  | getByToken token => Sessions.getByToken token
  | update user token ttl => Sessions.update user token ttl
  | rotate user old token ttl => Sessions.rotate user old token ttl
  | delete user => Sessions.delete user
  | purge => Sessions.purge

/-- A call of the revocation service. -/
inductive RevocationTask where
  | add (tokenId : String) (expiresAt : Instant)
  | contains (tokenId : String)
  | revokeUser (user : UserId) (revokedBefore expiresAt : Instant)
  | isUserRevoked (user : UserId) (issuedAt : Instant)
  | purge
  deriving DecidableEq, Repr

/-- What a call of the revocation service answers if it succeeds. -/
abbrev RevocationTask.Answer : RevocationTask → Type
  | add .. | revokeUser .. => Unit
  | contains _ | isUserRevoked .. => Bool
  | purge => Nat

/-- The service of a call of the revocation service. -/
def RevocationTask.service : (t : RevocationTask) → Service t.Answer
  | add tokenId expiresAt => Blacklist.add tokenId expiresAt
  | contains tokenId => Blacklist.contains tokenId
  | revokeUser user revokedBefore expiresAt => Blacklist.revokeUser user revokedBefore expiresAt
  | isUserRevoked user issuedAt => Blacklist.isUserRevoked user issuedAt
  | purge => Blacklist.purge

/-- A task of an instance. -/
inductive Task where
  | operation (o : Operation)
  | session (t : SessionTask)
  | revocation (t : RevocationTask)
  /-- The cache keys that match a pattern are invalidated. -/
  | invalidate (pattern : String)
  deriving DecidableEq, Repr

namespace Task

/-- What a task answers if it succeeds. -/
abbrev Answer : Task → Type
  | operation o => o.Answer
  | session t => t.Answer
  | revocation t => t.Answer
  | invalidate _ => Except CacheError Nat

/-- The service of a task. -/
def service (issuer : Issuer) : (t : Task) → Service t.Answer
  | operation o => o.service issuer
  | session t => t.service
  | revocation t => t.service
  | invalidate pattern => Service.cache (.invalidate pattern)

end Task

/-! ## Each service keeps to its own part -/

/-- Whether a request is one of the session service. -/
def Request.OfSessions : Request → Prop
  | .now | .session _ | .cache (.fetch ..) | .cache (.delete _) => True
  | .cache (.store .session key s _) => key = Key.session s.user
  | _ => False

/-- Whether a request is one of the revocation service, or to an issuer's memory. -/
def Request.OfRevocations : Request → Prop
  | .now | .revocation _ | .remember .. | .cache (.fetch ..) => True
  | .cache (.store .revocation key r _) => key = Key.blacklist r.tokenId
  | .cache (.store .cutoff key c _) => key = Key.cutoff c.user
  | _ => False

/-- Whether a service makes only requests of some kind, whatever it is answered. -/
def Service.Confined {α : Type} (allowed : Request → Prop) (s : Service α) : Prop :=
  ∀ h, Service.Obeys (fun _ => allowed) (fun _ _ => True) h s

namespace Service

variable {α β : Type} {allowed : Request → Prop}

theorem Confined.mono {allowed' : Request → Prop} {s : Service α} (hs : Confined allowed s)
    (hallowed : ∀ r, allowed r → allowed' r) : Confined allowed' s :=
  fun h => (hs h).mono (fun _ r => hallowed r) fun _ _ _ => trivial

theorem confined_pure (a : α) : Confined allowed (pure a) := fun _ => trivial

theorem confined_lift (verdict : Except AuthError α) :
    Confined allowed (liftM verdict : Service α) :=
  fun _ => (obeys_lift _ verdict).2 trivial

/-- What comes after an error is not asked. -/
theorem confined_throw_bind (e : AuthError) (next : α → Service β) :
    Confined allowed (throw e >>= next) :=
  fun _ => trivial

theorem Confined.bind {s : Service α} {next : α → Service β} (hs : Confined allowed s)
    (hnext : ∀ a, Confined allowed (next a)) : Confined allowed (s >>= next) := by
  intro h
  refine (obeys_bind _ s next).2 ?_
  refine Program.Obeys.mono (fun _ _ hallowed => hallowed) (fun h' result _ => ?_) (hs h)
  cases result with
  | ok a => exact hnext a h'
  | error e => exact trivial

/-- An error that is an answer, too, is no end. -/
theorem Confined.attempt {s : Service α} {next : Except AuthError α → Service β}
    (hs : Confined allowed s) (hnext : ∀ result, Confined allowed (next result)) :
    Confined allowed (ExceptT.lift s.run >>= next) := by
  refine Confined.bind (fun h => ?_) hnext
  rw [obeys_attempt]
  exact hs h

theorem confined_now (hallowed : allowed .now) : Confined allowed now :=
  fun _ => ⟨hallowed, fun _ => trivial⟩

theorem confined_ask {r : Request} (hallowed : allowed r) : Confined allowed (ask r) :=
  fun _ => ⟨hallowed, fun _ => trivial⟩

theorem confined_cache (c : CacheCall) (hallowed : allowed (.cache c)) :
    Confined allowed (cache c) :=
  fun _ => ⟨hallowed, fun _ => trivial⟩

theorem confined_revocation {c : RevocationCall} (hallowed : allowed (.revocation c)) :
    Confined allowed (revocation c) :=
  fun _ => ⟨hallowed, fun _ => trivial⟩

end Service

open Service

namespace Blacklist

theorem confined_keep (r : Revocation) : Confined Request.OfRevocations (keep r) := by
  refine (confined_now trivial).bind fun time => ?_
  split
  · refine Confined.bind (confined_cache _ ?_) fun _ => confined_pure _
    exact rfl
  · exact confined_pure _

theorem confined_add (tokenId : String) (expiresAt : Instant) :
    Confined Request.OfRevocations (add tokenId expiresAt) :=
  (confined_revocation trivial).bind fun _ => (confined_now trivial).bind fun _ => confined_keep _

theorem confined_isRecorded (tokenId : String) (time : Instant) :
    Confined Request.OfRevocations (isRecorded tokenId time) := by
  refine (confined_revocation trivial).bind fun found => ?_
  split
  · exact (confined_keep _).bind fun _ => confined_pure _
  · exact confined_pure _

theorem confined_loadCutoff (user : UserId) :
    Confined Request.OfRevocations (loadCutoff user) := by
  refine (confined_now trivial).bind fun time => (confined_revocation trivial).bind fun found => ?_
  split
  · refine Confined.bind (confined_cache _ ?_) fun _ => confined_pure _
    exact rfl
  · exact confined_pure _

end Blacklist

/-- The revocation service makes only requests of its own. -/
theorem RevocationTask.confined (t : RevocationTask) :
    Confined Request.OfRevocations t.service := by
  cases t with
  | add tokenId expiresAt => exact Blacklist.confined_add tokenId expiresAt
  | contains tokenId =>
    refine (confined_now trivial).bind fun time => (confined_cache _ trivial).bind fun cached => ?_
    split
    · split
      · exact confined_pure _
      · exact Blacklist.confined_isRecorded tokenId time
    · exact Blacklist.confined_isRecorded tokenId time
  | revokeUser user revokedBefore expiresAt =>
    refine (confined_revocation trivial).bind fun _ => ?_
    exact (Blacklist.confined_loadCutoff user).bind fun _ => confined_pure _
  | isUserRevoked user issuedAt =>
    refine (confined_cache _ trivial).bind fun cached => ?_
    dsimp only
    split
    · exact (confined_pure _).bind fun _ => confined_pure _
    · exact (Blacklist.confined_loadCutoff user).bind fun _ => confined_pure _
  | purge => exact (confined_now trivial).bind fun _ => confined_revocation trivial

/-- To revoke a token, an issuer needs its own memory and the revocation service. -/
theorem Issuer.confined_revoke (i : Issuer) (kind : TokenKind) (token : String) :
    Confined Request.OfRevocations (i.revoke kind token) := by
  refine (confined_lift _).bind fun claims => ?_
  dsimp only
  split
  · exact confined_throw_bind _ _
  refine (confined_now trivial).bind fun time => ?_
  split
  · exact confined_pure _
  refine (confined_ask trivial).bind fun _ => ?_
  split
  · exact Blacklist.confined_add _ _
  · exact confined_pure _

end Bearer
