/-
  Operations in fleets that are alike.

  Every service is gone through line by line in two fleets that are alike.  Two
  places take more than that.  A token can be given to a session only if no
  other session holds it, and a purge might remove one that does: a pair of
  tokens that has just been issued is new in both fleets, as all tokens on
  record state ids drawn before.  And a session is updated whether it has ended
  or not: one that is rotated has just been found, so it has not ended.

  Main statement: `Alike.execute`.
-/
import Bearer.Proofs.Fleet.Alike
import Bearer.Proofs.Service.Task

namespace Bearer

open Fleet Service

variable {n : Nat} {f f' : MemoryFleet n} {i : Fin n} {user : UserId} {token : String}

/-! ## Sessions -/

namespace Sessions

theorem twins_invalidate (h : f.Alike f') (user : UserId) :
    Twins i (· = ·) (invalidate user) (invalidate user) f f' :=
  (twins_delete h _).next fun h _ _ _ => twins_pure h rfl

theorem twins_keep (h : f.Alike f') {s s' : Session} (hsame : s.unnumbered = s'.unnumbered) :
    Twins i (· = ·) (keep s) (keep s') f f' := by
  obtain ⟨huser, -, hexpires⟩ := Session.eq_of_unnumbered hsame
  refine twins_now h ?_
  rw [huser, hexpires]
  cases Key.sessionTtl s'.expiresAt f.wall with
  | some ttl => exact (twins_store h .session hsame _ _).next fun h _ _ _ => twins_pure h rfl
  | none => exact twins_invalidate h _

/-- A token that no other user's session holds can be given to a session. -/
theorem twins_create (h : f.Alike f') (hdrawn : f.Drawn token)
    (hfree : f.origin.sessions.takenByOther user token = false)
    (hfree' : f'.origin.sessions.takenByOther user token = false) (expiresAt : Instant) :
    Twins i (fun _ _ => True) (create user token expiresAt) (create user token expiresAt) f f' := by
  refine twins_now h ?_
  refine (twins_upsert h hdrawn hfree hfree' expiresAt f.wall).next fun h s s' hsame => ?_
  exact (twins_keep h hsame).next fun h _ _ _ => twins_pure h trivial

theorem twins_load (h : f.Alike f') (user : UserId) (ended : Bool) :
    Twins i (fun s s' => s.unnumbered = s'.unnumbered) (load user ended) (load user ended)
      f f' := by
  refine twins_now h ?_
  refine (twins_findByUser h user).next fun h found found' hsame => ?_
  obtain ⟨rfl, rfl⟩ | ⟨s, s', rfl, rfl, hrow⟩ := none_or_some hsame
  · exact twins_throw h _
  · exact (twins_keep h hrow).next fun h _ _ _ => twins_pure h hrow

theorem twins_get (h : f.Alike f') (user : UserId) :
    Twins i (fun s s' => s.unnumbered = s'.unnumbered) (get user) (get user) f f' := by
  refine (twins_fetch h .session _).next fun {g g'} h found found' hsame => ?_
  obtain ⟨rfl, rfl⟩ | ⟨s, s', rfl, rfl, hrow⟩ := none_or_some hsame
  · exact twins_load h user false
  -- Both cached sessions have ended, or neither has.
  · have hended : s.expired g.wall = s'.expired g.wall := by
      rw [Session.expired, Session.expired, (Session.eq_of_unnumbered hrow).2.2]
    refine twins_now h ?_
    rw [hended]
    split
    · exact (twins_invalidate h user).next fun h _ _ _ => twins_load h user true
    · exact twins_pure h hrow

theorem twins_getByToken (h : f.Alike f') (token : String) :
    Twins i (fun s s' => s.unnumbered = s'.unnumbered) (getByToken token) (getByToken token)
      f f' := by
  refine twins_now h ?_
  refine (twins_findByToken h token).next fun h found found' hsame => ?_
  obtain ⟨rfl, rfl⟩ | ⟨s, s', rfl, rfl, hrow⟩ := none_or_some hsame
  · exact twins_throw h _
  · exact twins_pure h hrow

/-- A session found by its token has not ended. -/
theorem found_of_getByToken (hcoherent : f.origin.sessions.Coherent) {row : Session}
    {g : MemoryFleet n} (hok : f.perform i (getByToken token) = (.ok row, g)) :
    g.origin.sessions.findByUser row.user g.wall = some row ∧ row.refreshToken = token := by
  obtain ⟨time, f₁, hnow, hok⟩ := ok_of_bind hok
  obtain ⟨htime, rfl⟩ := Prod.mk.inj hnow
  obtain rfl := Except.ok.inj htime
  obtain ⟨found, f₂, hfind, hok⟩ := ok_of_bind hok
  obtain ⟨hfound, rfl⟩ := Prod.mk.inj hfind
  cases found with
  | some s =>
    obtain ⟨hrow, rfl⟩ := Prod.mk.inj hok
    obtain rfl := Except.ok.inj hrow
    exact hcoherent.findByToken_eq_some_iff.1 (Except.ok.inj hfound)
  | none => cases (Prod.mk.inj hok).1

/-- A session that has not ended can be given a token that no other user's session holds. -/
theorem twins_rotate (h : f.Alike f') (hdrawn : f.Drawn token) {row : Session}
    (hrow : f.origin.sessions.findByUser user f.wall = some row)
    (hfree : f.origin.sessions.takenByOther user token = false)
    (hfree' : f'.origin.sessions.takenByOther user token = false) (ttl : Duration) :
    Twins i (· = ·) (rotate user row.refreshToken token ttl)
      (rotate user row.refreshToken token ttl) f f' := by
  refine twins_now h ?_
  cases deadline f.wall ttl with
  | error e => exact twins_throw_bind h e _ _
  | ok expiresAt =>
    refine (twins_updateToken h hdrawn hrow hfree hfree' expiresAt).nextSame fun h written => ?_
    cases written with
    | true => exact twins_invalidate h user
    | false => exact twins_throw h _

theorem twins_delete (h : f.Alike f') (user : UserId) :
    Twins i (· = ·) (delete user) (delete user) f f' :=
  (twins_deleteByUser h user).next fun h _ _ _ => twins_invalidate h user

end Sessions

/-! ## Revocations -/

namespace Blacklist

theorem twins_keep (h : f.Alike f') {r r' : Revocation} (hsame : r.undated = r'.undated) :
    Twins i (· = ·) (keep r) (keep r') f f' := by
  obtain ⟨hid, hexpires⟩ := Revocation.eq_of_undated hsame
  refine twins_now h ?_
  rw [hid, hexpires]
  cases Key.blacklistTtl r'.expiresAt f.wall with
  | some ttl => exact (twins_store h .revocation hsame _ _).next fun h _ _ _ => twins_pure h rfl
  | none => exact twins_pure h rfl

theorem twins_add (h : f.Alike f') (tokenId : String) (expiresAt : Instant) :
    Twins i (· = ·) (add tokenId expiresAt) (add tokenId expiresAt) f f' :=
  (twins_insert h tokenId expiresAt).next fun h _ _ _ => twins_now h (twins_keep h rfl)

theorem twins_isRecorded (h : f.Alike f') (tokenId : String) :
    Twins i (· = ·) (isRecorded tokenId f.wall) (isRecorded tokenId f.wall) f f' := by
  refine (twins_findActive h tokenId).next fun h found found' hsame => ?_
  obtain ⟨rfl, rfl⟩ | ⟨r, r', rfl, rfl, hrow⟩ := none_or_some hsame
  · exact twins_pure h rfl
  · exact (twins_keep h hrow).next fun h _ _ _ => twins_pure h rfl

theorem twins_contains (h : f.Alike f') (tokenId : String) :
    Twins i (· = ·) (contains tokenId) (contains tokenId) f f' := by
  refine twins_now h ?_
  refine (twins_fetch h .revocation _).bind fun found found' g g' hfetch _ h hsame => ?_
  rw [← wall_of_perform hfetch]
  obtain ⟨rfl, rfl⟩ | ⟨r, r', rfl, rfl, hrow⟩ := none_or_some hsame
  · exact twins_isRecorded h tokenId
  · have hactive : r.active g.wall = r'.active g.wall := by
      rw [Revocation.active, Revocation.active, (Revocation.eq_of_undated hrow).2]
    dsimp only
    rw [hactive]
    split
    · exact twins_pure h rfl
    · exact twins_isRecorded h tokenId

theorem twins_loadCutoff (h : f.Alike f') (user : UserId) :
    Twins i (· = ·) (loadCutoff user) (loadCutoff user) f f' := by
  refine twins_now h ?_
  refine (twins_findCutoff h user).nextSame fun h found => ?_
  cases found with
  | some revokedBefore =>
    exact (twins_store h .cutoff rfl _ _).next fun h _ _ _ => twins_pure h rfl
  | none => exact twins_pure h rfl

theorem twins_revokeUser (h : f.Alike f') (user : UserId) (expiresAt : Instant) :
    Twins i (· = ·) (revokeUser user f.wall expiresAt) (revokeUser user f.wall expiresAt) f f' :=
  (twins_insertCutoff h user expiresAt).next fun h _ _ _ =>
    (twins_loadCutoff h user).next fun h _ _ _ => twins_pure h rfl

theorem twins_isUserRevoked (h : f.Alike f') (user : UserId) (issuedAt : Instant) :
    Twins i (· = ·) (isUserRevoked user issuedAt) (isUserRevoked user issuedAt) f f' := by
  refine (twins_fetch h .cutoff _).next fun h found found' hsame => ?_
  obtain rfl : found = found' := by
    rwa [Kind.essence, Option.map_id, id, id] at hsame
  cases found with
  | some cutoff => exact (twins_pure h rfl).nextSame fun h _ => twins_pure h rfl
  | none => exact (twins_loadCutoff h user).nextSame fun h _ => twins_pure h rfl

end Blacklist

/-! ## The issuer -/

namespace Issuer

variable {issuer : Issuer}

theorem twins_issue (h : f.Alike f') (kind : TokenKind) (user : UserId) (username : String)
    (time : Instant) :
    Twins i (· = ·) (issuer.issue kind user username time) (issuer.issue kind user username time)
      f f' := by
  refine (twins_lift h _).nextSame fun h expiresAt => ?_
  refine (twins_freshTokenId h).nextSame fun h tokenId => ?_
  exact twins_pure h rfl

theorem twins_issuePair (h : f.Alike f') (user : UserId) (username : String) :
    Twins i (· = ·) (issuer.issuePair user username) (issuer.issuePair user username) f f' := by
  refine twins_now h ?_
  refine (twins_issue h .access user username _).nextSame fun h access => ?_
  refine (twins_issue h .refresh user username _).nextSame fun h refresh => ?_
  exact twins_pure h rfl

theorem twins_verify (h : f.Alike f') (kind : TokenKind) (token : String) :
    Twins i (· = ·) (issuer.verify kind token) (issuer.verify kind token) f f' :=
  twins_now h (twins_lift h _)

theorem twins_revoke (h : f.Alike f') (kind : TokenKind) (token : String) :
    Twins i (· = ·) (issuer.revoke kind token) (issuer.revoke kind token) f f' := by
  refine (twins_lift h _).nextSame fun h claims => ?_
  dsimp only
  split
  · exact twins_throw_bind h _ _ _
  refine twins_now h ?_
  split
  · exact twins_pure h rfl
  refine (twins_remember h claims.tokenId claims.expiresAt).next fun h _ _ _ => ?_
  split
  · exact Blacklist.twins_add h _ _
  · exact twins_pure h rfl

/-- A refresh token that has just been issued is drawn, and no session holds it. -/
theorem new_of_issuePair (hdrawn : f.AllDrawn) {issuer : Issuer} {username : String}
    {pair : TokenPair} {g : MemoryFleet n}
    (hok : f.perform i (issuer.issuePair user username) = (.ok pair, g)) :
    g.Drawn pair.refresh ∧ ∀ owner, g.origin.sessions.takenByOther owner pair.refresh = false := by
  obtain ⟨rfl, htokens⟩ := mint_of_issuePair hok
  obtain ⟨expiresAt, hmint⟩ := htokens .refresh
  refine ⟨⟨_, _, TokenConfig.inRange_payload .., ⟨f.minted + 2, Nat.le_refl _, rfl⟩, hmint⟩,
    fun owner => ?_⟩
  rw [Bool.eq_false_iff]
  intro htaken
  obtain ⟨⟨other, row⟩, hentry, htoken⟩ := List.any_eq_true.1 htaken
  obtain ⟨config, payload, hrange, hid, hold⟩ :=
    hdrawn other row ((Table.mem_entries_iff ..).1 hentry)
  simp only [Bool.and_eq_true, decide_eq_true_eq] at htoken
  have hsame : pair.refresh = config.mint payload := htoken.2.symm.trans hold
  -- A token of record that is the same states the same id, which has been drawn before.
  have hpayload := TokenConfig.mint_injective (TokenConfig.inRange_payload ..) hrange
    (hmint.symm.trans hsame)
  rw [← congrArg Token.Payload.tokenId hpayload] at hid
  have hle : f.minted + 2 ≤ f.minted := hasDrawn_id_iff.1 hid
  omega

end Issuer

/-! ## The facade -/

namespace Auth

variable {issuer : Issuer}

theorem twins_isRevoked (h : f.Alike f') (tokenId : String) :
    Twins i (· = ·) (isRevoked tokenId) (isRevoked tokenId) f f' := by
  refine (twins_isRemembered h tokenId).nextSame fun h remembered => ?_
  cases remembered with
  | true => exact twins_pure h rfl
  | false => exact Blacklist.twins_contains h tokenId

theorem twins_requireNotRevoked (h : f.Alike f') (claims : Claims) :
    Twins i (· = ·) (requireNotRevoked claims) (requireNotRevoked claims) f f' := by
  refine (twins_isRevoked h claims.tokenId).nextSame fun h revoked => ?_
  cases revoked with
  | true => exact twins_throw_bind h _ _ _
  | false =>
    refine (Blacklist.twins_isUserRevoked h claims.user claims.issuedAt).nextSame
      fun h revoked => ?_
    cases revoked with
    | true => exact twins_throw h _
    | false => exact twins_pure h rfl

theorem twins_revokeOwned (h : f.Alike f') (user : UserId) (token : String) :
    Twins i (· = ·) (revokeOwned issuer user token) (revokeOwned issuer user token) f f' := by
  unfold revokeOwned
  cases issuer.config.peek token with
  | error e => exact twins_pure h rfl
  | ok claims =>
    dsimp only
    split
    · exact twins_pure h rfl
    refine twins_now h ?_
    split
    · exact twins_pure h rfl
    · exact Blacklist.twins_add h _ _

theorem twins_recordLogin (h : f.Alike f') (user : User) :
    Twins i (· = ·) (recordLogin user) (recordLogin user) f f' := by
  refine twins_now h ?_
  exact (twins_updateUser h _).next fun h _ _ _ => twins_pure h rfl

theorem twins_login (h : f.Alike f') (username password : String) :
    Twins i (· = ·) (login issuer username password) (login issuer username password) f f' := by
  refine (twins_user h (.verify username password)).nextSame fun h user => ?_
  refine (Issuer.twins_issuePair h user.id user.username).bind
    fun tokens _ g g' hissue hissue' h' hsame => ?_
  subst hsame
  -- No session on record holds the new token, and it does not matter which of them have ended.
  obtain ⟨hdrawn, hfree⟩ := Issuer.new_of_issuePair h.drawn hissue
  have hfree' := (Issuer.new_of_issuePair h.drawn' hissue').2
  refine (Sessions.twins_create h' hdrawn (hfree _) (hfree' _) _).next fun h _ _ _ => ?_
  refine (twins_recordLogin h user).nextSame fun h user => ?_
  exact twins_pure h rfl

/-- What the revocation service does leaves the sessions of record as they are. -/
theorem sessions_of_add {tokenId : String} {expiresAt : Instant} {result : Except AuthError Unit}
    {g : MemoryFleet n} (h : f.perform i (Blacklist.add tokenId expiresAt) = (result, g)) :
    g.origin.sessions = f.origin.sessions := by
  have hkept := (Blacklist.confined_add tokenId expiresAt []).run (answer i)
    (fun _ g => g.origin.sessions = f.origin.sessions) ?_ (s := f) rfl
  · have hend : (f.perform i (Blacklist.add tokenId expiresAt)).2.origin.sessions =
        f.origin.sessions := hkept.1
    rwa [h] at hend
  · intro _ g r hg hallowed
    rw [answer_sessions]
    cases r with
    | session c => exact absurd hallowed id
    | _ => exact hg

/-- The token of a session that has not ended can be redeemed. -/
theorem twins_redeem (h : f.Alike f') (claims : Claims) {row : Session}
    (hrow : f.origin.sessions.findByUser claims.user f.wall = some row) :
    Twins i (· = ·) (redeem issuer claims row.refreshToken) (redeem issuer claims row.refreshToken)
      f f' := by
  refine (Issuer.twins_issuePair h claims.user claims.username).bind
    fun tokens _ g g' hissue hissue' h' hsame => ?_
  subst hsame
  obtain ⟨hdrawn, hfree⟩ := Issuer.new_of_issuePair h.drawn hissue
  have hfree' := (Issuer.new_of_issuePair h.drawn' hissue').2
  have hfound : g.origin.sessions.findByUser claims.user g.wall = some row := by
    obtain ⟨rfl, -⟩ := mint_of_issuePair hissue
    exact hrow
  refine (Blacklist.twins_add h' claims.tokenId claims.expiresAt).bind
    fun _ _ k k' hadd hadd' h'' _ => ?_
  -- The revocation of the old token leaves the session as it was found.
  have hsessions := sessions_of_add hadd
  have hsessions' := sessions_of_add hadd'
  refine twins_now h'' ?_
  cases tokens.refreshExpiresAt.remaining? k.wall with
  | none => exact twins_throw h'' _
  | some ttl =>
    refine (Sessions.twins_rotate h'' (hdrawn.mono (onward_of_perform hadd)) ?_ ?_ ?_
      ttl).next fun h _ _ _ => twins_pure h rfl
    · rw [hsessions, wall_of_perform hadd]
      exact hfound
    · rw [hsessions]
      exact hfree _
    · rw [hsessions']
      exact hfree' _

theorem twins_refresh (h : f.Alike f') (token : String) :
    Twins i (· = ·) (refresh issuer token) (refresh issuer token) f f' := by
  rw [refresh_eq_redeem]
  refine (Issuer.twins_verify h .refresh token).nextSame fun h claims => ?_
  refine (twins_requireNotRevoked h claims).next fun {g g'} h _ _ _ => ?_
  refine (Sessions.twins_getByToken h token).bind fun row row' k k' hget _ h' hsame => ?_
  obtain ⟨hrow, rfl⟩ := Sessions.found_of_getByToken h.sessions.coherent hget
  obtain ⟨huser, -, -⟩ := Session.eq_of_unnumbered hsame
  dsimp only
  rw [← huser]
  split
  · exact twins_throw_bind h' _ _ _
  · next howner =>
    rw [Decidable.not_not.1 howner] at hrow
    exact twins_redeem h' claims hrow

theorem twins_logout (h : f.Alike f') (user : UserId) (accessToken refreshToken : String) :
    Twins i (· = ·) (logout issuer user accessToken refreshToken)
      (logout issuer user accessToken refreshToken) f f' :=
  (twins_revokeOwned h user accessToken).next fun h _ _ _ =>
    (twins_revokeOwned h user refreshToken).next fun h _ _ _ => Sessions.twins_delete h user

theorem twins_verify (h : f.Alike f') (token : String) :
    Twins i (· = ·) (verify issuer token) (verify issuer token) f f' := by
  refine (Issuer.twins_verify h .access token).nextSame fun h claims => ?_
  exact (twins_requireNotRevoked h claims).next fun h _ _ _ => twins_pure h rfl

theorem twins_revoke (h : f.Alike f') (token : String) :
    Twins i (· = ·) (revoke issuer token) (revoke issuer token) f f' := by
  refine (twins_lift h _).nextSame fun h claims => ?_
  exact Issuer.twins_revoke h claims.kind token

theorem twins_revokeAll (h : f.Alike f') (user : UserId) :
    Twins i (· = ·) (revokeAll issuer user) (revokeAll issuer user) f f' := by
  refine twins_now h ?_
  refine (twins_lift h _).bind fun lastExpiry _ g g' hlast _ h hsame => ?_
  subst hsame
  rw [← wall_of_perform hlast]
  refine (Blacklist.twins_revokeUser h user lastExpiry).next fun h _ _ _ => ?_
  refine (Sessions.twins_delete h user).next fun h _ _ _ => ?_
  exact (twins_invalidate h _).next fun h _ _ _ => twins_pure h rfl

theorem twins_holdsToken (h : f.Alike f') (user : UserId) (token : String) :
    Twins i (· = ·) (holdsToken user token) (holdsToken user token) f f' := by
  refine (twins_attempt (Sessions.twins_get h user)).next fun h found found' hfound => ?_
  obtain ⟨e, rfl, rfl⟩ | ⟨s, s', rfl, rfl, hsame⟩ := hfound.error_or_ok
  · split
    · next heq => cases heq
    · exact twins_pure h rfl
    · exact twins_pure h rfl
    · exact twins_throw h _
  · dsimp only
    rw [(Session.eq_of_unnumbered hsame).2.1]
    split
    · exact twins_pure h rfl
    refine (twins_attempt (Sessions.twins_getByToken h token)).next fun h found found' hfound => ?_
    obtain ⟨e, rfl, rfl⟩ | ⟨s, s', rfl, rfl, hsame⟩ := hfound.error_or_ok
    · split
      · next heq => cases heq
      · exact twins_pure h rfl
      · exact twins_throw h _
    · exact twins_pure h (by rw [(Session.eq_of_unnumbered hsame).1])

end Auth

/-! ## Operations -/

/-- What of a result matters: everything but the number of a session. -/
def Operation.shown : (o : Operation) → o.Result → o.Result
  | .session _, result => result.map Session.unnumbered
  | _, result => result

namespace Fleet

theorem Twins.same {α : Type} {s : Service α} (h : Twins i (· = ·) s s f f') :
    (f.perform i s).2.Alike (f'.perform i s).2 ∧ (f.perform i s).1 = (f'.perform i s).1 := by
  refine ⟨h.1, ?_⟩
  obtain ⟨e, hresult, hresult'⟩ | ⟨a, a', hresult, hresult', hanswers⟩ := h.2.error_or_ok
  · rw [hresult, hresult']
  · rw [hresult, hresult', hanswers]

/-- An operation of the facade ends alike in fleets that are alike. -/
theorem Alike.execute (h : f.Alike f') (i : Fin n) {o : Operation} (ho : o ≠ .tidy) :
    (f.execute i o).2.Alike (f'.execute i o).2 ∧
      o.shown (f.execute i o).1 = o.shown (f'.execute i o).1 := by
  unfold Fleet.execute
  rw [← h.issuers i]
  cases o with
  | login username password => exact (Auth.twins_login h username password).same
  | refresh token => exact (Auth.twins_refresh h token).same
  | logout user accessToken refreshToken =>
    exact (Auth.twins_logout h user accessToken refreshToken).same
  | verify token => exact (Auth.twins_verify h token).same
  | revoke token => exact (Auth.twins_revoke h token).same
  | revokeAll user => exact (Auth.twins_revokeAll h user).same
  | session user =>
    have htwins : Twins i (fun s s' => s.unnumbered = s'.unnumbered) (Auth.session user)
        (Auth.session user) f f' := Sessions.twins_get h user
    refine ⟨htwins.1, ?_⟩
    simp only [Operation.shown, Operation.service]
    obtain ⟨e, hresult, hresult'⟩ | ⟨s, s', hresult, hresult', hsame⟩ := htwins.2.error_or_ok
    · rw [hresult, hresult']
    · rw [hresult, hresult', Except.map, Except.map, hsame]
  | holdsToken user token => exact (Auth.twins_holdsToken h user token).same
  | isRevoked tokenId => exact (Auth.twins_isRevoked h tokenId).same
  | tidy => exact absurd rfl ho

end Fleet

end Bearer
