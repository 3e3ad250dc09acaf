/-
  What a service ends with.

  A service of an instance runs from beginning to end while nothing else
  happens, so what it ends with can be found by going through it line by line,
  from one state of the fleet to the next.

  Main statements: `perform_bind`, the rules `yields_pure`, `yields_lift` and
  `yields_bind`, and those for the requests.
-/
import Bearer.Proofs.Fleet.Caches

namespace Bearer.Fleet

section

variable {σ ρ : Type} [Origin σ] [SharedBackend ρ]
variable {n : Nat} {α β : Type} {i : Fin n} {f : Fleet σ ρ n}

/-- Whether a service of an instance ends as `post` says. -/
def Yields (i : Fin n) (s : Service α) (post : Except AuthError α → Fleet σ ρ n → Prop)
    (f : Fleet σ ρ n) : Prop :=
  post (f.perform i s).1 (f.perform i s).2

variable {post : Except AuthError α → Fleet σ ρ n → Prop}

theorem yields_pure (a : α) : Yields i (pure a) post f ↔ post (.ok a) f := Iff.rfl

/-- What has a verdict already ends with it. -/
theorem yields_lift (verdict : Except AuthError α) :
    Yields i (liftM verdict : Service α) post f ↔ post verdict f := by
  cases verdict <;> exact Iff.rfl

/-- A token is looked at without asking for anything. -/
theorem yields_peek (issuer : Issuer) (token : String)
    {post : Except AuthError Claims → Fleet σ ρ n → Prop} :
    Yields i (issuer.peek token) post f ↔ post (issuer.config.peek token) f :=
  yields_lift _

/-- A sequence goes on with what its first part ended with; an error ends it. -/
theorem perform_bind (f : Fleet σ ρ n) (i : Fin n) (s : Service α) (next : α → Service β) :
    f.perform i (s >>= next) =
      match f.perform i s with
      | (.ok a, g) => g.perform i (next a)
      | (.error e, g) => (.error e, g) := by
  have hrun : f.perform i (s >>= next) =
      (ExceptT.bindCont next (f.perform i s).1).run (answer i) (f.perform i s).2 :=
    Prog.run_bind ..
  rw [hrun]
  cases f.perform i s with
  | mk result g => cases result <;> rfl

theorem yields_bind (s : Service α) (next : α → Service β)
    {post : Except AuthError β → Fleet σ ρ n → Prop} :
    Yields i (s >>= next) post f ↔
      Yields i s (fun result f' => match result with
        | .ok a => Yields i (next a) post f'
        | .error e => post (.error e) f') f := by
  unfold Yields
  rw [perform_bind]
  cases f.perform i s with
  | mk result g => cases result <;> exact Iff.rfl

/-- A sequence that succeeds has succeeded in its first part and goes on with what that ended
with. -/
theorem ok_of_bind {s : Service α} {next : α → Service β} {b : β} {g : Fleet σ ρ n}
    (h : f.perform i (s >>= next) = (.ok b, g)) :
    ∃ a f', f.perform i s = (.ok a, f') ∧ f'.perform i (next a) = (.ok b, g) := by
  rw [perform_bind] at h
  cases hfirst : f.perform i s with
  | mk result f' =>
    rw [hfirst] at h
    cases result with
    | ok a => exact ⟨a, f', rfl, h⟩
    | error e => cases h

theorem yields_ask (r : Request) {post : Except AuthError r.Reply → Fleet σ ρ n → Prop} :
    Yields i (Service.ask r) post f ↔ post (.ok (answer i r f).1) (answer i r f).2 := Iff.rfl

theorem yields_now {post : Except AuthError Instant → Fleet σ ρ n → Prop} :
    Yields i Service.now post f ↔ post (.ok f.wall) f := Iff.rfl

theorem yields_isRemembered (tokenId : String)
    {post : Except AuthError Bool → Fleet σ ρ n → Prop} :
    Yields i (Service.ask (.isRemembered tokenId)) post f ↔
      post (.ok ((f.revoked i).contains f.wall tokenId)) f := Iff.rfl

theorem yields_cache (c : CacheCall) {post : Except AuthError c.Reply → Fleet σ ρ n → Prop} :
    Yields i (Service.cache c) post f ↔
      post (.ok (answer i (.cache c) f).1) (answer i (.cache c) f).2 := Iff.rfl

/-- A call to the revocations of record ends as the record answers it. -/
theorem yields_recorded (c : RevocationCall)
    {post : Except AuthError c.Answer → Fleet σ ρ n → Prop} :
    Yields i (Service.revocation c) post f ↔
      post (answer i (.revocation c) f).1 (answer i (.revocation c) f).2 := Iff.rfl

/-- A service whose error is an answer, too. -/
theorem perform_attempt (f : Fleet σ ρ n) (i : Fin n) (s : Service α) :
    f.perform i (ExceptT.lift s.run) = (.ok (f.perform i s).1, (f.perform i s).2) :=
  Prog.run_bind ..

theorem yields_attempt (s : Service α)
    {post : Except AuthError (Except AuthError α) → Fleet σ ρ n → Prop} :
    Yields i (ExceptT.lift s.run) post f ↔
      Yields i s (fun result f' => post (.ok result) f') f := by
  unfold Yields
  rw [perform_attempt]

end

variable {n : Nat} {α β : Type} {i : Fin n} {f : MemoryFleet n}

/-- What a sequence asks if its first part succeeds. -/
theorem asked_bind {s : Service α} {next : α → Service β} {a : α} {g : MemoryFleet n}
    (hs : f.perform i s = (.ok a, g)) :
    f.asked i (s >>= next) = g.asked i (next a) ++ f.asked i s := by
  have hasked : f.asked i (s >>= next) =
      Program.history (answer i) (ExceptT.bindCont next (f.perform i s).1) (f.perform i s).2
        (f.asked i s) :=
    Program.history_bind ..
  rw [hasked, hs]
  exact Program.history_append ..

theorem yields_fetch (kind : Kind) (key : String)
    {post : Except AuthError (Option kind.Content) → MemoryFleet n → Prop} :
    Yields i (Service.cache (.fetch kind key)) post f ↔
      post (.ok (f.finds i kind key)) (answer i (.cache (.fetch kind key)) f).2 := by
  rw [← answer_fetch]
  exact Iff.rfl

theorem yields_revocation (c : RevocationCall)
    {post : Except AuthError c.Answer → MemoryFleet n → Prop} :
    Yields i (Service.revocation c) post f ↔
      post (f.origin.revocations.perform f.wall c).1 (answer i (.revocation c) f).2 := Iff.rfl

theorem yields_session (c : SessionCall) {post : Except AuthError c.Answer → MemoryFleet n → Prop} :
    Yields i (Service.session c) post f ↔
      post (f.origin.sessions.perform c).1 (answer i (.session c) f).2 := Iff.rfl

/-- A token is judged by the wall clock; nothing else is asked. -/
theorem perform_verify (f : MemoryFleet n) (i : Fin n) (issuer : Issuer) (kind : TokenKind)
    (token : String) :
    f.perform i (issuer.verify kind token) = (issuer.config.verify kind f.wall token, f) := by
  rw [Issuer.verify, perform_bind]
  show f.perform i (liftM (issuer.config.verify kind f.wall token) : Service Claims) = _
  cases issuer.config.verify kind f.wall token <;> rfl

/-- The session that holds a token is looked up on record. -/
theorem perform_getByToken (f : MemoryFleet n) (i : Fin n) (token : String) :
    f.perform i (Sessions.getByToken token) =
      ((f.origin.sessions.findByToken token f.wall).elim (.error .sessionNotFound) .ok,
        (answer i (.session (.findByToken token f.wall)) f).2) := by
  have hsession : f.perform i (Service.session (.findByToken token f.wall)) =
      (.ok (f.origin.sessions.findByToken token f.wall),
        (answer i (.session (.findByToken token f.wall)) f).2) := rfl
  rw [Sessions.getByToken, perform_bind]
  show f.perform i (Service.session (.findByToken token f.wall) >>= _) = _
  rw [perform_bind, hsession]
  cases f.origin.sessions.findByToken token f.wall <;> rfl

/-- The rest of accepting a token that is good by itself. -/
theorem execute_verify {claims : Claims} {token : String}
    (hverify : (f.issuer i).config.verify .access f.wall token = .ok claims) :
    f.execute i (.verify token) = f.perform i do
      Auth.requireNotRevoked claims
      return claims := by
  have hrest : f.execute i (.verify token) = f.perform i do
      let claims ← liftM ((f.issuer i).config.verify .access f.wall token)
      Auth.requireNotRevoked claims
      return claims := rfl
  rw [hrest, hverify]
  rfl

/-- The rest of a refresh, once the session that holds the token has been found. -/
def redeem (issuer : Issuer) (claims : Claims) (token : String) : Service TokenPair := do
  let tokens ← issuer.issuePair claims.user claims.username
  Blacklist.add claims.tokenId claims.expiresAt
  match tokens.refreshExpiresAt.remaining? (← Service.now) with
  | some ttl => do
    Sessions.rotate claims.user token tokens.refresh ttl
    return tokens
  | none => throw (.internal .issuedTokenExpired)

theorem refresh_eq_redeem (issuer : Issuer) (token : String) :
    Auth.refresh issuer token = (do
      let claims ← issuer.verify .refresh token
      Auth.requireNotRevoked claims
      let session ← Sessions.getByToken token
      if session.user ≠ claims.user then throw .tokenInvalid
      redeem issuer claims token) := rfl

section

variable {g g' : MemoryFleet n} {issuer : Issuer} {token : String} {claims : Claims} {row : Session}

/-- A refresh whose token passes all tests goes on to redeem it. -/
theorem perform_refresh (hverify : issuer.config.verify .refresh f.wall token = .ok claims)
    (hchecked : f.perform i (Auth.requireNotRevoked claims) = (.ok (), g))
    (hfound : g.perform i (Sessions.getByToken token) = (.ok row, g'))
    (huser : row.user = claims.user) :
    f.perform i (Auth.refresh issuer token) = g'.perform i (redeem issuer claims token) := by
  rw [refresh_eq_redeem, perform_bind, perform_verify, hverify]
  dsimp only
  rw [perform_bind, hchecked]
  dsimp only
  rw [perform_bind, hfound]
  dsimp only
  rw [if_neg (not_not_intro huser)]

/-- What it asks until then comes first. -/
theorem asked_refresh (hverify : issuer.config.verify .refresh f.wall token = .ok claims)
    (hchecked : f.perform i (Auth.requireNotRevoked claims) = (.ok (), g))
    (hfound : g.perform i (Sessions.getByToken token) = (.ok row, g'))
    (huser : row.user = claims.user) :
    f.asked i (Auth.refresh issuer token) =
      g'.asked i (redeem issuer claims token) ++ g.asked i (Sessions.getByToken token) ++
        f.asked i (Auth.requireNotRevoked claims) ++ f.asked i (issuer.verify .refresh token) := by
  have hgood : f.perform i (issuer.verify .refresh token) = (.ok claims, f) := by
    rw [perform_verify, hverify]
  rw [refresh_eq_redeem, asked_bind hgood, asked_bind hchecked, asked_bind hfound,
    if_neg (not_not_intro huser)]

end

end Bearer.Fleet
