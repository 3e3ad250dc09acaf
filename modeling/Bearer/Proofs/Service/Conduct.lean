/-
  How operations behave.

  The rules that every operation of every instance keeps, whatever it is
  answered.  A session is given a token at most once by one operation, and only
  a token that the operation has issued itself under an id it has just drawn;
  a login makes a session, but a refresh only writes in place of the token that
  it redeems.  A revocation is
  one of a token that the operation takes out of use.  Only what has expired at a
  time that the wall clock has shown is purged.  What is cached is what the
  record has just been told or has answered, a cutoff for one short time.

  Main definitions: `conduct`, and `History.Issued`, `History.Cleared`,
  `History.Denied` and `History.Voided`, the reasons that a history can hold for
  an answer.
-/
import Bearer.Proofs.Service.History
import Bearer.Proofs.Service.Operation
import Bearer.Proofs.Store.Session

namespace Bearer

/-- The user and the token that a request gives a session. -/
def Request.gift? : Request → Option (UserId × String)
  | .session c => c.gift?
  | _ => none

/-- Whether a request gives a session a token. -/
def Request.givesToken (r : Request) : Bool := r.gift?.isSome

namespace History

/-- Whether the wall clock has shown a time. -/
def Told (h : History) (time : Instant) : Prop := ⟨.now, time⟩ ∈ h

/-- Whether a token id has been drawn. -/
def Drew (h : History) (tokenId : String) : Prop := ⟨.freshTokenId, tokenId⟩ ∈ h

/-- Whether no session has been given a token. -/
def Tokenless (h : History) : Prop := ∀ e ∈ h, e.request.givesToken = false

/-- Whether a token for a user has been issued at a time shown, under an id drawn. -/
def Issued (h : History) (config : TokenConfig) (kind : TokenKind) (user : UserId)
    (token : String) : Prop :=
  ∃ username time expiresAt tokenId, h.Told time ∧ h.Drew tokenId ∧
    time.deadline? (config.lifetime kind) = some expiresAt ∧
    token = config.mint (config.payload kind user username time expiresAt tokenId)

/-- Whether the record has said that a token is not revoked at a time shown, and cache or record
that its user is not cut off. -/
def Cleared (h : History) (claims : Claims) : Prop :=
  (∃ time, h.Told time ∧ ⟨.revocation (.findActive claims.tokenId time), .ok none⟩ ∈ h) ∧
  ((∃ cutoff : Cutoff, ⟨.cache (.fetch .cutoff (Key.cutoff claims.user)), some cutoff⟩ ∈ h ∧
      cutoff.revokes claims.issuedAt = false) ∨
    ∃ time, ∃ revokedBefore : Option Instant, h.Told time ∧
      ⟨.revocation (.findCutoff claims.user time), .ok revokedBefore⟩ ∈ h ∧
      ∀ t ∈ revokedBefore, ¬ claims.issuedAt ≤ t)

/-- Whether a token has been put on record as revoked, or had expired at a time shown. -/
def Voided (h : History) (claims : Claims) : Prop :=
  (∃ time, h.Told time ∧ claims.expiresAt ≤ time) ∨
    ⟨.revocation (.insert claims.tokenId claims.expiresAt), .ok ()⟩ ∈ h

/-- Whether a token is remembered, cached or on record as revoked. -/
def Refused (h : History) (tokenId : String) : Prop :=
  ⟨.isRemembered tokenId, true⟩ ∈ h ∨
  (∃ r : Revocation, ∃ time, h.Told time ∧
    ⟨.cache (.fetch .revocation (Key.blacklist tokenId)), some r⟩ ∈ h ∧ r.active time = true) ∨
  ∃ r time, h.Told time ∧ ⟨.revocation (.findActive tokenId time), .ok (some r)⟩ ∈ h

/-- Whether cache or record say that the tokens of a user issued at a time are revoked. -/
def CutOff (h : History) (user : UserId) (issuedAt : Instant) : Prop :=
  (∃ cutoff : Cutoff, ⟨.cache (.fetch .cutoff (Key.cutoff user)), some cutoff⟩ ∈ h ∧
    cutoff.revokes issuedAt = true) ∨
  ∃ time revokedBefore, h.Told time ∧
    ⟨.revocation (.findCutoff user time), .ok (some revokedBefore)⟩ ∈ h ∧ issuedAt ≤ revokedBefore

/-- Whether the revocations of record have failed. -/
def Failed (h : History) (e : AuthError) : Prop :=
  ∃ c : RevocationCall, ⟨.revocation c, .error e⟩ ∈ h

/-- Whether there is a reason to refuse a token as revoked. -/
def Denied (h : History) (claims : Claims) (e : AuthError) : Prop :=
  h.Failed e ∨
    e = .tokenBlacklisted ∧ (h.Refused claims.tokenId ∨ h.CutOff claims.user claims.issuedAt)

/-- Whether a history goes on from another one without giving a session a token. -/
def Extends (h' h : History) : Prop :=
  ∃ new : List Exchange, h' = new ++ h ∧ ∀ e ∈ new, e.request.givesToken = false

end History

/-- What an operation may ask of the cache. -/
def CacheCall.Fits (h : History) : CacheCall → Prop
  | .setString .. => False
  | .store .session key s ttl => key = Key.session s.user ∧ ttl.isSome
  | .store .revocation key r ttl =>
    key = Key.blacklist r.tokenId ∧ ttl.isSome ∧
      (⟨.revocation (.insert r.tokenId r.expiresAt), .ok ()⟩ ∈ h ∨
        ∃ tokenId time, ⟨.revocation (.findActive tokenId time), .ok (some r)⟩ ∈ h)
  | .store .cutoff key c ttl =>
    key = Key.cutoff c.user ∧ ttl = some Key.cutoffLifetime ∧
      ∃ time, ⟨.revocation (.findCutoff c.user time), .ok (some c.revokedBefore)⟩ ∈ h
  | _ => True

/-- Whether an operation takes out of use a token of an id that expires at a time. -/
def Operation.Retires (issuer : Issuer) (o : Operation) (tokenId : String) (expiresAt : Instant) :
    Prop :=
  ∃ token ∈ o.retired, ∃ claims, issuer.config.peek token = .ok claims ∧
    claims.tokenId = tokenId ∧ claims.expiresAt = expiresAt

/-- Whether an operation makes sessions. -/
def Operation.Opens (o : Operation) : Prop := ∃ username password, o = .login username password

/-- Whether an operation removes the session of a user. -/
def Operation.Closes (o : Operation) (user : UserId) : Prop :=
  (∃ access refresh, o = .logout user access refresh) ∨ o = .revokeAll user

/-- What an operation may ask. -/
def conduct (issuer : Issuer) (o : Operation) : Manners
  | h, .session (.upsert user token _ _) =>
    h.Tokenless ∧ h.Issued issuer.config .refresh user token ∧ o.Opens
  | h, .session (.updateToken user expected token _) =>
    h.Tokenless ∧ h.Issued issuer.config .refresh user token ∧
      ∃ old claims, o = .refresh old ∧ expected = some old ∧
        issuer.config.peek old = .ok claims ∧ claims.user = user
  | _, .session (.deleteByUser user) => o.Closes user
  | h, .session (.deleteExpired time) | h, .revocation (.deleteExpired time) =>
    h.Told time ∧ o = .tidy
  | _, .revocation (.insert tokenId expiresAt) => o.Retires issuer tokenId expiresAt
  | h, .remember tokenId expiresAt =>
    o.Retires issuer tokenId expiresAt ∧ (∃ token, o = .revoke token) ∧
      ∃ time, h.Told time ∧ ¬ expiresAt ≤ time
  | h, .revocation (.insertCutoff user revokedBefore _) =>
    h.Told revokedBefore ∧ o = .revokeAll user
  | h, .cache c => c.Fits h
  | _, _ => True

/-- Whether a request has a token of an id revoked until a time. -/
def Request.Revokes (r : Request) (tokenId : String) (expiresAt : Instant) : Prop :=
  r = .revocation (.insert tokenId expiresAt) ∨ r = .remember tokenId expiresAt

/-- A token is only revoked by an operation that takes it out of use. -/
theorem Request.Revokes.retires {issuer : Issuer} {o : Operation} {h : History} {r : Request}
    {tokenId : String} {expiresAt : Instant} (hr : r.Revokes tokenId expiresAt)
    (hconduct : conduct issuer o h r) : o.Retires issuer tokenId expiresAt := by
  rcases hr with rfl | rfl
  · exact hconduct
  · exact hconduct.1

/-- A token that is given is the first one, and has been issued. -/
theorem issued_of_gift {issuer : Issuer} {o : Operation} {h : History} {r : Request}
    {user : UserId} {token : String} (hconduct : conduct issuer o h r)
    (hgift : r.gift? = some (user, token)) :
    h.Tokenless ∧ h.Issued issuer.config .refresh user token := by
  cases r with
  | session c =>
    cases c with
    | upsert owner given expiresAt createdAt =>
      obtain ⟨rfl, rfl⟩ : owner = user ∧ given = token := by simpa using Option.some.inj hgift
      exact ⟨hconduct.1, hconduct.2.1⟩
    | updateToken owner expected given expiresAt =>
      obtain ⟨rfl, rfl⟩ : owner = user ∧ given = token := by simpa using Option.some.inj hgift
      exact ⟨hconduct.1, hconduct.2.1⟩
    | _ => cases hgift
  | _ => cases hgift

/-! ## Growing histories -/

namespace History

variable {h h' h'' : History} {e : Exchange} {config : TokenConfig} {kind : TokenKind}
variable {user : UserId} {token : String} {claims : Claims}

theorem Extends.refl (h : History) : h.Extends h := ⟨[], rfl, by simp⟩

theorem Extends.cons (hext : h'.Extends h) (he : e.request.givesToken = false) :
    History.Extends (e :: h') h := by
  obtain ⟨new, rfl, hnew⟩ := hext
  refine ⟨e :: new, rfl, ?_⟩
  intro e' he'
  rcases List.mem_cons.1 he' with rfl | he'
  · exact he
  · exact hnew e' he'

theorem Extends.step (he : e.request.givesToken = false) : History.Extends (e :: h) h :=
  (Extends.refl h).cons he

theorem Extends.trans (hext' : h''.Extends h') (hext : h'.Extends h) : h''.Extends h := by
  obtain ⟨new, rfl, hnew⟩ := hext
  obtain ⟨new', rfl, hnew'⟩ := hext'
  refine ⟨new' ++ new, by rw [List.append_assoc], ?_⟩
  intro e he
  rcases List.mem_append.1 he with he | he
  · exact hnew' e he
  · exact hnew e he

theorem Extends.mem (hext : h'.Extends h) (he : e ∈ h) : e ∈ h' := by
  obtain ⟨new, rfl, -⟩ := hext
  exact List.mem_append_right new he

theorem Extends.tokenless (hext : h'.Extends h) (hh : h.Tokenless) : h'.Tokenless := by
  obtain ⟨new, rfl, hnew⟩ := hext
  intro e he
  rcases List.mem_append.1 he with he | he
  · exact hnew e he
  · exact hh e he

theorem Issued.of_subset (hsub : ∀ e ∈ h, e ∈ h') (hi : h.Issued config kind user token) :
    h'.Issued config kind user token := by
  obtain ⟨username, time, expiresAt, tokenId, htold, hdrew, hdeadline, htoken⟩ := hi
  exact ⟨username, time, expiresAt, tokenId, hsub _ htold, hsub _ hdrew, hdeadline, htoken⟩

theorem Cleared.of_subset (hsub : ∀ e ∈ h, e ∈ h') (hc : h.Cleared claims) : h'.Cleared claims := by
  obtain ⟨⟨time, htold, hfind⟩, hcutoff⟩ := hc
  refine ⟨⟨time, hsub _ htold, hsub _ hfind⟩, ?_⟩
  -- Cache or record have said so before.
  rcases hcutoff with ⟨cutoff, hfetch, hrevokes⟩ | ⟨time', revokedBefore, htold', hfind', hlater⟩
  · exact Or.inl ⟨cutoff, hsub _ hfetch, hrevokes⟩
  · exact Or.inr ⟨time', revokedBefore, hsub _ htold', hsub _ hfind', hlater⟩

theorem Voided.of_subset (hsub : ∀ e ∈ h, e ∈ h') (hv : h.Voided claims) : h'.Voided claims := by
  rcases hv with ⟨time, htold, hexpired⟩ | hinsert
  · exact Or.inl ⟨time, hsub _ htold, hexpired⟩
  · exact Or.inr (hsub _ hinsert)

theorem tokenless_nil : Tokenless [] := by simp [Tokenless]

end History

end Bearer
