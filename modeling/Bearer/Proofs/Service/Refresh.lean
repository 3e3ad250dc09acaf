/-
  How a refresh ends.

  A refresh has two halves.  It prepares: the token is judged, its revocations
  and its session are looked up, and a new pair is issued; all that only looks,
  at the record as it is at times that the wall clock has shown.  Then it
  commits: the old token is put on record as revoked, and the new one is written
  into the session in its place.  Whatever it is answered, the history of a
  refresh tells which of its steps has ended it, and what has been written by
  then.

  Main definition: `RefreshEnding`.  Main statements: `Auth.looks_prepare` and
  `Operation.redeems`.
-/
import Bearer.Proofs.Service.Facade
import Bearer.Proofs.Service.Failures

namespace Bearer

/-! ## Looking and writing -/

/-- Whether a request leaves the record and what is remembered as they are. -/
def Request.Peeks : Request → Prop
  | .now | .freshTokenId | .isRemembered _ | .cache (.fetch ..) | .cache (.store ..) => True
  | .session (.findByToken ..) | .revocation (.findActive ..) | .revocation (.findCutoff ..) => True
  | _ => False

/-- The time at which a request looks at the record. -/
def Request.lookTime? : Request → Option Instant
  | .session (.findByToken _ time) | .revocation (.findActive _ time) => some time
  | .revocation (.findCutoff _ time) => some time
  | _ => none

/-- Whether a request may write what a refresh writes. -/
def Request.Commits : Request → Prop
  | .revocation (.insert ..) | .session (.updateToken ..) | .cache (.delete _) => True
  | _ => False

/-- Whether an exchange has replaced a token in a session. -/
def Exchange.Replaces : Exchange → Prop
  | ⟨.session (.updateToken ..), .ok true⟩ => True
  | _ => False

theorem Exchange.not_replaces_of_peeks {x : Exchange} (hpeeks : x.request.Peeks) :
    ¬ x.Replaces := by
  obtain ⟨r, reply⟩ := x
  cases r with
  | session c => cases c <;> first | exact fun _ => hpeeks | exact id
  | _ => exact id

namespace History

/-- Whether a request only looks, and at no time that the wall clock has not shown. -/
def Looks (h : History) (r : Request) : Prop := r.Peeks ∧ ∀ time ∈ r.lookTime?, h.Told time

/-- Whether a request is one of a refresh. -/
def Redeems (h : History) (r : Request) : Prop := h.Looks r ∨ r.Commits

/-- Whether nothing has been written. -/
def Idle (h : History) : Prop := ∀ x ∈ h, x.request.Peeks

/-- Whether no token has been replaced in a session. -/
def Vain (h : History) : Prop := ∀ x ∈ h, ¬ x.Replaces

/-- Whether a refresh token has been found good at a time shown. -/
def Accepted (h : History) (config : TokenConfig) (token : String) (claims : Claims) : Prop :=
  ∃ time, h.Told time ∧ config.verify .refresh time token = .ok claims

/-- Whether a time was still to come at a time shown. -/
def Lasts (h : History) (expiresAt : Instant) : Prop :=
  ∃ time, h.Told time ∧ (expiresAt.remaining? time).isSome

variable {h h' : History} {config : TokenConfig} {token : String} {claims : Claims}

theorem Lasts.of_subset {expiresAt : Instant} (hsub : ∀ x ∈ h, x ∈ h') (hl : h.Lasts expiresAt) :
    h'.Lasts expiresAt := by
  obtain ⟨time, htold, hsome⟩ := hl
  exact ⟨time, hsub _ htold, hsome⟩

theorem Idle.vain (hh : h.Idle) : h.Vain :=
  fun x hx => Exchange.not_replaces_of_peeks (hh x hx)

theorem looks_now (h : History) : h.Looks .now := ⟨trivial, by simp [Request.lookTime?]⟩

theorem Vain.cons (hh : h.Vain) {x : Exchange} (hx : ¬ x.Replaces) : Vain (x :: h) :=
  List.forall_mem_cons.2 ⟨hx, hh⟩

theorem Accepted.of_subset (hsub : ∀ x ∈ h, x ∈ h') (ha : h.Accepted config token claims) :
    h'.Accepted config token claims := by
  obtain ⟨time, htold, hverify⟩ := ha
  exact ⟨time, hsub _ htold, hverify⟩

theorem Accepted.peek (ha : h.Accepted config token claims) : config.peek token = .ok claims := by
  obtain ⟨time, -, hverify⟩ := ha
  exact (TokenConfig.verify_eq_ok_iff.1 hverify).1

end History

/-- How a refresh can end, and what is in its history then. -/
inductive RefreshEnding (config : TokenConfig) (token : String) (h : History) :
    Except AuthError TokenPair → Prop where
  /-- The token is not good by itself. -/
  | rejected {time : Instant} {e : AuthError} (idle : h.Idle) (told : h.Told time)
      (verdict : config.verify .refresh time token = .error e) :
      RefreshEnding config token h (.error e)
  /-- The token is revoked, or the revocations of record have failed. -/
  | refused {claims : Claims} {e : AuthError} (idle : h.Idle)
      (accepted : h.Accepted config token claims) (denied : h.Denied claims e) :
      RefreshEnding config token h (.error e)
  /-- The sessions of record have failed. -/
  | unseen {claims : Claims} {time : Instant} {e : AuthError} (idle : h.Idle)
      (accepted : h.Accepted config token claims) (cleared : h.Cleared claims)
      (failed : ⟨.session (.findByToken token time), .error e⟩ ∈ h) :
      RefreshEnding config token h (.error e)
  /-- No session holds the token. -/
  | unheld {claims : Claims} {time : Instant} (idle : h.Idle)
      (accepted : h.Accepted config token claims) (cleared : h.Cleared claims)
      (found : ⟨.session (.findByToken token time), .ok none⟩ ∈ h) :
      RefreshEnding config token h (.error .sessionNotFound)
  /-- The session that holds the token is another user's. -/
  | foreign {claims : Claims} {time : Instant} {row : Session} (idle : h.Idle)
      (accepted : h.Accepted config token claims) (cleared : h.Cleared claims)
      (found : ⟨.session (.findByToken token time), .ok (some row)⟩ ∈ h)
      (other : row.user ≠ claims.user) : RefreshEnding config token h (.error .tokenInvalid)
  /-- The times of the new tokens make no sense. -/
  | mistimed {e : AuthError} (mistimed : h.Mistimed config) :
      RefreshEnding config token h (.error e)
  /-- The token cannot be put on record as revoked. -/
  | unlisted {claims : Claims} {before : History} {e : AuthError} (idle : before.Idle)
      (accepted : h.Accepted config token claims) (cleared : h.Cleared claims)
      (failed : h = ⟨.revocation (.insert claims.tokenId claims.expiresAt), .error e⟩ :: before) :
      RefreshEnding config token h (.error e)
  /-- The token is on record as revoked, but the session cannot be written. -/
  | unwritten {claims : Claims} {new : String} {expiresAt : Instant} {e : AuthError} (vain : h.Vain)
      (accepted : h.Accepted config token claims) (cleared : h.Cleared claims)
      (listed : ⟨.revocation (.insert claims.tokenId claims.expiresAt), .ok ()⟩ ∈ h)
      (failed : ⟨.session (.updateToken claims.user (some token) new expiresAt), .error e⟩ ∈ h) :
      RefreshEnding config token h (.error e)
  /-- The token is on record as revoked, but the session does not hold it any more. -/
  | outrun {claims : Claims} {new : String} {expiresAt : Instant} (vain : h.Vain)
      (accepted : h.Accepted config token claims) (cleared : h.Cleared claims)
      (listed : ⟨.revocation (.insert claims.tokenId claims.expiresAt), .ok ()⟩ ∈ h)
      (lost : ⟨.session (.updateToken claims.user (some token) new expiresAt), .ok false⟩ ∈ h) :
      RefreshEnding config token h (.error .sessionNotFound)
  /-- The session holds the new token. -/
  | redeemed {claims : Claims} {pair : TokenPair} {expiresAt : Instant}
      (accepted : h.Accepted config token claims) (cleared : h.Cleared claims)
      (listed : ⟨.revocation (.insert claims.tokenId claims.expiresAt), .ok ()⟩ ∈ h)
      (won : ⟨.session (.updateToken claims.user (some token) pair.refresh expiresAt),
        .ok true⟩ ∈ h)
      (expiry : expiresAt = pair.refreshExpiresAt ∨ h.Mistimed config)
      (spans : h.Spans config pair.refreshExpiresAt) (lasts : h.Lasts pair.refreshExpiresAt) :
      RefreshEnding config token h (.ok pair)

namespace Service

variable {α β : Type} {h : History} {shown : List Instant}

/-- Whether a service only looks, if the wall clock has shown some times before. -/
def Looking (shown : List Instant) (s : Service α) : Prop :=
  ∀ h : History, (∀ time ∈ shown, h.Told time) → Obeys History.Looks (fun _ _ => True) h s

/-! ## Rules -/

theorem looking_pure (a : α) : Looking shown (pure a) := fun _ _ => trivial

theorem looking_lift (verdict : Except AuthError α) :
    Looking shown (liftM verdict : Service α) :=
  fun _ _ => (obeys_lift _ verdict).2 trivial

theorem looking_throw (e : AuthError) : Looking shown (throw e : Service α) := fun _ _ => trivial

/-- What comes after an error is not asked. -/
theorem looking_throw_bind (e : AuthError) (next : α → Service β) :
    Looking shown (throw e >>= next) :=
  fun _ _ => trivial

theorem Looking.bind {s : Service α} {next : α → Service β} (hs : Looking shown s)
    (hnext : ∀ a, Looking shown (next a)) : Looking shown (s >>= next) := by
  intro h hh
  refine (obeys_bind _ s next).2 ((hs h hh).grows.mono (fun _ _ h => h) fun h' result hext => ?_)
  cases result with
  | ok a => exact hnext a h' fun time ht => hext.1.mem (hh time ht)
  | error e => exact trivial

/-- What follows a look at the wall clock may look at the record at that time. -/
theorem looking_now_bind {next : Instant → Service α}
    (hnext : ∀ time, Looking (time :: shown) (next time)) : Looking shown (now >>= next) := by
  intro h hh
  rw [obeys_bind, obeys_now]
  refine ⟨h.looks_now, fun time => hnext time _ ?_⟩
  exact List.forall_mem_cons.2
    ⟨List.mem_cons_self .., fun t ht => List.mem_cons_of_mem _ (hh t ht)⟩

theorem looking_ask (r : Request) (hpeeks : r.Peeks) (htime : r.lookTime? = none) :
    Looking shown (ask r) :=
  fun _ _ => ⟨⟨hpeeks, by simp [htime]⟩, fun _ => trivial⟩

theorem looking_cache (c : CacheCall) (hpeeks : (Request.cache c).Peeks) :
    Looking shown (cache c) :=
  looking_ask _ hpeeks rfl

theorem looking_session (c : SessionCall) (hpeeks : (Request.session c).Peeks)
    (htime : ∀ time ∈ (Request.session c).lookTime?, time ∈ shown) :
    Looking shown (session c) :=
  fun _ hh => ⟨⟨hpeeks, fun time ht => hh time (htime time ht)⟩, fun _ => trivial⟩

theorem looking_revocation (c : RevocationCall) (hpeeks : (Request.revocation c).Peeks)
    (htime : ∀ time ∈ (Request.revocation c).lookTime?, time ∈ shown) :
    Looking shown (revocation c) :=
  fun _ hh => ⟨⟨hpeeks, fun time ht => hh time (htime time ht)⟩, fun _ => trivial⟩

end Service

open Service

variable {shown : List Instant} {issuer : Issuer}

/-! ## What only looks -/

namespace Blacklist

theorem looking_keep (r : Revocation) : Looking shown (keep r) := by
  refine looking_now_bind fun time => ?_
  split
  · exact (looking_cache _ (by trivial)).bind fun _ => looking_pure _
  · exact looking_pure _

theorem looking_isRecorded (tokenId : String) {time : Instant} (htime : time ∈ shown) :
    Looking shown (isRecorded tokenId time) := by
  refine Looking.bind (looking_revocation _ trivial fun t ht => ?_) fun found => ?_
  · rwa [← Option.some.inj ht]
  · split
    · exact (looking_keep _).bind fun _ => looking_pure _
    · exact looking_pure _

theorem looking_contains (tokenId : String) : Looking shown (contains tokenId) := by
  refine looking_now_bind fun time => (looking_cache _ (by trivial)).bind fun cached => ?_
  split
  · split
    · exact looking_pure _
    · exact looking_isRecorded tokenId (List.mem_cons_self ..)
  · exact looking_isRecorded tokenId (List.mem_cons_self ..)

theorem looking_loadCutoff (user : UserId) : Looking shown (loadCutoff user) := by
  refine looking_now_bind fun time => Looking.bind (looking_revocation _ trivial fun t ht => ?_)
    fun found => ?_
  · rw [← Option.some.inj ht]
    exact List.mem_cons_self ..
  · split
    · exact (looking_cache _ (by trivial)).bind fun _ => looking_pure _
    · exact looking_pure _

theorem looking_isUserRevoked (user : UserId) (issuedAt : Instant) :
    Looking shown (isUserRevoked user issuedAt) := by
  refine (looking_cache _ (by trivial)).bind fun cached => ?_
  dsimp only
  split
  · exact (looking_pure _).bind fun _ => looking_pure _
  · exact (looking_loadCutoff user).bind fun _ => looking_pure _

end Blacklist

namespace Issuer

theorem looking_issue (kind : TokenKind) (user : UserId) (username : String) (time : Instant) :
    Looking shown (issuer.issue kind user username time) :=
  (looking_lift _).bind fun _ => (looking_ask _ (by trivial) rfl).bind fun _ => looking_pure _

theorem looking_issuePair (user : UserId) (username : String) :
    Looking shown (issuer.issuePair user username) :=
  looking_now_bind fun _ => (looking_issue _ _ _ _).bind fun _ =>
    (looking_issue _ _ _ _).bind fun _ => looking_pure _

theorem looking_verify (kind : TokenKind) (token : String) :
    Looking shown (issuer.verify kind token) :=
  looking_now_bind fun _ => looking_lift _

end Issuer

theorem Sessions.looking_getByToken (token : String) : Looking shown (getByToken token) := by
  refine looking_now_bind fun time => Looking.bind (looking_session _ trivial fun t ht => ?_)
    fun found => ?_
  · rw [← Option.some.inj ht]
    exact List.mem_cons_self ..
  · split
    · exact looking_pure _
    · exact looking_throw _

namespace Auth

theorem looking_requireNotRevoked (claims : Claims) :
    Looking shown (requireNotRevoked claims) := by
  refine Looking.bind (s := isRevoked claims.tokenId) ?_ fun revoked => ?_
  · refine (looking_ask _ (by trivial) rfl).bind fun remembered => ?_
    split
    · exact looking_pure _
    · exact Blacklist.looking_contains _
  dsimp only
  split
  · exact looking_throw_bind _ _
  refine (Blacklist.looking_isUserRevoked _ _).bind fun cutOff => ?_
  split
  · exact looking_throw _
  · exact looking_pure _

/-! ## The halves of a refresh -/

/-- The first half of a refresh: the claims of the token, and the new pair. -/
def prepare (issuer : Issuer) (token : String) : Service (Claims × TokenPair) := do
  let claims ← issuer.verify .refresh token
  requireNotRevoked claims
  let session ← Sessions.getByToken token
  if session.user ≠ claims.user then throw .tokenInvalid
  let tokens ← issuer.issuePair claims.user claims.username
  return (claims, tokens)

/-- The second half of a refresh: the old token is revoked, and the new one takes its place. -/
def commit (claims : Claims) (token : String) (tokens : TokenPair) : Service TokenPair := do
  Blacklist.add claims.tokenId claims.expiresAt
  match tokens.refreshExpiresAt.remaining? (← now) with
  | some ttl => do
    Sessions.rotate claims.user token tokens.refresh ttl
    return tokens
  | none => throw (.internal .issuedTokenExpired)

theorem refresh_eq_commit (issuer : Issuer) (token : String) :
    refresh issuer token = (prepare issuer token >>= fun p => commit p.1 token p.2) := by
  simp only [refresh, prepare, bind_assoc]
  refine congrArg _ (funext fun claims => congrArg _ (funext fun _ => congrArg _
    (funext fun session => ?_)))
  split
  · rfl
  · simp only [bind_assoc, pure_bind]
    rfl

theorem looking_prepare (issuer : Issuer) (token : String) :
    Looking shown (prepare issuer token) := by
  refine (Issuer.looking_verify _ _).bind fun claims => ?_
  refine (looking_requireNotRevoked claims).bind fun _ => ?_
  refine (Sessions.looking_getByToken token).bind fun session => ?_
  dsimp only
  split
  · exact looking_throw_bind _ _
  · exact (Issuer.looking_issuePair _ _).bind fun _ => looking_pure _

/-- What a refresh has done when it is prepared. -/
def Prepared (config : TokenConfig) (token : String) (h : History) :
    Except AuthError (Claims × TokenPair) → Prop
  | .ok (claims, pair) => h.Accepted config token claims ∧ h.Cleared claims ∧
      h.Spans config pair.refreshExpiresAt
  | .error e => h.Idle → RefreshEnding config token h (.error e)

theorem prepares (issuer : Issuer) (token : String) (h : History) :
    Obeys (fun _ _ => True) (Prepared issuer.config token) h (prepare issuer token) := by
  rw [prepare, obeys_bind]
  -- The token is judged by itself.
  refine Program.Obeys.anyhow (Issuer.obeys_verify (o := .refresh token)
    (fun h₁ time claims _ htold hverify => ?_)
    fun h₁ time e htold hverify hidle => .rejected hidle htold hverify)
  have haccepted : h₁.Accepted issuer.config token claims := ⟨time, htold, hverify⟩
  dsimp only
  rw [obeys_bind]
  -- What speaks against it is looked up.
  have hchecks : Obeys (conduct issuer (.refresh token)) (fun h' result => match result with
      | .ok () => h'.Cleared claims
      | .error e => h'.Denied claims e) h₁ (requireNotRevoked claims) :=
    obeys_requireNotRevoked (fun _ _ hcleared => hcleared) fun _ _ hdenied => hdenied
  refine hchecks.anyhow.grows.imp fun h₂ checked hchecked => ?_
  obtain ⟨hext₂, hchecked⟩ := hchecked
  have haccepted₂ := haccepted.of_subset fun x => hext₂.mem
  cases checked with
  | error e => exact fun hidle => .refused hidle haccepted₂ hchecked
  | ok =>
    dsimp only
    rw [obeys_bind, Sessions.getByToken, obeys_bind, obeys_now]
    refine ⟨trivial, fun now => ?_⟩
    dsimp only
    rw [obeys_bind, obeys_session]
    refine ⟨trivial, fun reply => ?_⟩
    have hsub : ∀ x ∈ h₂, x ∈ (⟨.session (.findByToken token now), reply⟩ :: ⟨.now, now⟩ :: h₂ :
        History) := fun x hx => List.mem_cons_of_mem _ (List.mem_cons_of_mem _ hx)
    have haccepted₃ := haccepted₂.of_subset hsub
    have hcleared₃ := hchecked.of_subset hsub
    -- The session is one that holds the token, and the user's.
    rcases reply with e | _ | row
    · exact fun hidle => .unseen hidle haccepted₃ hcleared₃ (List.mem_cons_self ..)
    · exact fun hidle => .unheld hidle haccepted₃ hcleared₃ (List.mem_cons_self ..)
    · dsimp only
      rw [obeys_pure]
      dsimp only
      split
      · next hother =>
        exact fun hidle => .foreign hidle haccepted₃ hcleared₃ (List.mem_cons_self ..) hother
      rw [obeys_bind]
      refine Issuer.times_issuePair.grows.imp fun h₄ pair hpair => ?_
      obtain ⟨hext₄, hpair⟩ := hpair
      cases pair with
      | error e => exact fun _ => .mistimed hpair
      | ok pair =>
        exact ⟨haccepted₃.of_subset fun x => hext₄.mem, hcleared₃.of_subset fun x => hext₄.mem,
          hpair⟩

variable {h : History} {config : TokenConfig} {token : String} {claims : Claims} {pair : TokenPair}

/-- Once the old token is on record as revoked, only the sessions can keep the refresh from
succeeding. -/
theorem commits_rotate {ttl : Duration} {later : Instant} (hvain : h.Vain)
    (haccepted : h.Accepted config token claims) (hcleared : h.Cleared claims)
    (hlisted : ⟨.revocation (.insert claims.tokenId claims.expiresAt), .ok ()⟩ ∈ h)
    (hspans : h.Spans config pair.refreshExpiresAt) (hlater : h.Told later)
    (hremaining : pair.refreshExpiresAt.remaining? later = some ttl) :
    Obeys History.Redeems (RefreshEnding config token) h (do
      Sessions.rotate claims.user token pair.refresh ttl
      return pair) := by
  have hlasts : h.Lasts pair.refreshExpiresAt := ⟨later, hlater, by rw [hremaining]; rfl⟩
  obtain ⟨time, htold, -, hdeadline⟩ := id hspans
  rw [obeys_bind, Sessions.rotate, Sessions.writeToken, obeys_bind, obeys_now]
  refine ⟨Or.inl h.looks_now, fun now => ?_⟩
  have hspan : now.deadline? ttl = some pair.refreshExpiresAt ∨
      History.Mistimed (⟨.now, now⟩ :: h) config :=
    History.deadline_or_mistimed (List.mem_cons_of_mem _ htold) (List.mem_cons_of_mem _ hlater)
      (List.mem_cons_self ..) hdeadline hremaining
  dsimp only
  rw [obeys_bind, obeys_lift, deadline]
  cases hexpiry : now.deadline? ttl with
  | none =>
    rw [hexpiry] at hspan
    exact .mistimed (hspan.resolve_left (by simp))
  | some expiresAt =>
    dsimp only
    rw [obeys_bind, obeys_session]
    refine ⟨Or.inr trivial, fun reply => ?_⟩
    have hsub : ∀ x ∈ h, x ∈ (⟨.session (.updateToken claims.user (some token) pair.refresh
        expiresAt), reply⟩ :: ⟨.now, now⟩ :: h : History) :=
      fun x hx => List.mem_cons_of_mem _ (List.mem_cons_of_mem _ hx)
    rcases reply with e | _ | _
    · exact .unwritten ((hvain.cons id).cons id) (haccepted.of_subset hsub)
        (hcleared.of_subset hsub) (hsub _ hlisted) (List.mem_cons_self ..)
    · exact .outrun ((hvain.cons id).cons id) (haccepted.of_subset hsub)
        (hcleared.of_subset hsub) (hsub _ hlisted) (List.mem_cons_self ..)
    -- What is cached of the session is dropped.
    · refine ⟨Or.inr trivial, fun reply => ?_⟩
      have hgrown : ∀ x ∈ h, x ∈ (⟨.cache (.delete (Key.session claims.user)), reply⟩ ::
          ⟨.session (.updateToken claims.user (some token) pair.refresh expiresAt), .ok true⟩ ::
            ⟨.now, now⟩ :: h : History) := fun x hx => List.mem_cons_of_mem _ (hsub x hx)
      refine .redeemed (haccepted.of_subset hgrown) (hcleared.of_subset hgrown)
        (hgrown _ hlisted) (List.mem_cons_of_mem _ (List.mem_cons_self ..)) ?_
        (hspans.of_subset hgrown) (hlasts.of_subset hgrown)
      rcases hspan with hsame | hmistimed
      · exact Or.inl (Option.some.inj (hexpiry.symm.trans hsame))
      · exact Or.inr (hmistimed.of_subset fun x hx =>
          List.mem_cons_of_mem _ (List.mem_cons_of_mem _ hx))

/-- Caching a revocation ends well, and makes no difference. -/
theorem commits_keep (r : Revocation) (hvain : h.Vain)
    {post : History → Except AuthError Unit → Prop}
    (next : ∀ h' : History, h <:+ h' → h'.Vain → post h' (.ok ())) :
    Obeys History.Redeems post h (Blacklist.keep r) := by
  rw [Blacklist.keep, obeys_bind, obeys_now]
  refine ⟨Or.inl h.looks_now, fun time => ?_⟩
  have hnow : History.Vain (⟨.now, time⟩ :: h) := hvain.cons id
  dsimp only
  split
  · rw [obeys_bind, obeys_cache]
    refine ⟨Or.inl ⟨trivial, by simp [Request.lookTime?]⟩, fun reply => ?_⟩
    exact next _ ((List.suffix_cons ..).trans (List.suffix_cons ..)) (hnow.cons id)
  · exact next _ (List.suffix_cons ..) hnow

/-- A refresh that is prepared commits, and ends in one of the ways that there are. -/
theorem commits (hidle : h.Idle) (haccepted : h.Accepted config token claims)
    (hcleared : h.Cleared claims) (hspans : h.Spans config pair.refreshExpiresAt) :
    Obeys History.Redeems (RefreshEnding config token) h (commit claims token pair) := by
  rw [commit, obeys_bind, Blacklist.add, obeys_bind, obeys_revocation]
  refine ⟨Or.inr trivial, fun reply => ?_⟩
  cases reply with
  | error e =>
    have hsub : ∀ x ∈ h, x ∈ (⟨.revocation (.insert claims.tokenId claims.expiresAt), .error e⟩ ::
        h : History) := fun x hx => List.mem_cons_of_mem _ hx
    exact .unlisted hidle (haccepted.of_subset hsub) (hcleared.of_subset hsub) rfl
  | ok =>
    rw [obeys_bind, obeys_now]
    refine ⟨Or.inl (History.looks_now _), fun createdAt => ?_⟩
    dsimp only
    refine commits_keep _ ((hidle.vain.cons id).cons id) fun h₁ hext hvain => ?_
    dsimp only
    rw [obeys_bind, obeys_now]
    refine ⟨Or.inl h₁.looks_now, fun later => ?_⟩
    have hsub : ∀ x ∈ (⟨.revocation (.insert claims.tokenId claims.expiresAt), .ok ()⟩ :: h :
        History), x ∈ (⟨.now, later⟩ :: h₁ : History) :=
      fun x hx => List.mem_cons_of_mem _ (hext.mem (List.mem_cons_of_mem _ hx))
    have hgrown : ∀ x ∈ h, x ∈ (⟨.now, later⟩ :: h₁ : History) :=
      fun x hx => hsub x (List.mem_cons_of_mem _ hx)
    have hlater : History.Told (⟨.now, later⟩ :: h₁) later := List.mem_cons_self ..
    dsimp only
    cases hremaining : pair.refreshExpiresAt.remaining? later with
    | none =>
      obtain ⟨time, htold, -, hdeadline⟩ := hspans
      exact .mistimed (History.mistimed_of_remaining (hgrown _ htold) hlater hdeadline hremaining)
    | some ttl =>
      exact commits_rotate (hvain.cons id) (haccepted.of_subset hgrown)
        (hcleared.of_subset hgrown) (hsub _ (List.mem_cons_self ..)) (hspans.of_subset hgrown)
        hlater hremaining

/-- A refresh asks for nothing but what a refresh needs, and ends in one of the ways that there
are. -/
theorem redeems_refresh (issuer : Issuer) (token : String) :
    Obeys History.Redeems (RefreshEnding issuer.config token) [] (refresh issuer token) := by
  rw [refresh_eq_commit, obeys_bind]
  have hlooking : Looking [] (prepare issuer token) := looking_prepare issuer token
  have hidle : Obeys History.Looks (fun h' _ => h'.Idle ∧ True) [] (prepare issuer token) :=
    (hlooking [] (by simp)).records (fun _ _ hlooks _ => hlooks.1) (by simp)
  refine (hidle.and (prepares issuer token [])).mono (fun _ _ hr => Or.inl hr.1)
    fun h result hprepared => ?_
  obtain ⟨⟨hidle, -⟩, hprepared⟩ := hprepared
  cases result with
  | error e => exact hprepared hidle
  | ok prepared =>
    obtain ⟨haccepted, hcleared, hspans⟩ := hprepared
    exact commits hidle haccepted hcleared hspans

end Auth

/-- How an operation ends, as far as it is a refresh. -/
def Operation.Ending (issuer : Issuer) : (o : Operation) → History → o.Result → Prop
  | .refresh token, h, result => RefreshEnding issuer.config token h result
  | _, _, _ => True

/-- What an operation may ask, and a refresh only as far as it needs to. -/
def redeeming (issuer : Issuer) (o : Operation) : Manners :=
  fun h r => conduct issuer o h r ∧ ∀ token, o = .refresh token → h.Redeems r

/-- Operations keep the rules of conduct, and refreshes end in one of the ways that there are. -/
theorem Operation.redeems (issuer : Issuer) (o : Operation) :
    Obeys (redeeming issuer o) (o.Ending issuer) [] (o.service issuer) := by
  cases o with
  | refresh token =>
    refine ((Operation.obeys issuer (.refresh token)).and
      (Auth.redeems_refresh issuer token)).mono (fun h r hr => ⟨hr.1, fun _ _ => hr.2⟩)
      fun _ _ hend => hend.2
  | _ => exact (Operation.obeys issuer _).mono (fun _ _ hr => ⟨hr, nofun⟩) fun _ _ _ => trivial

end Bearer
