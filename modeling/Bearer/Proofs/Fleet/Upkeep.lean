/-
  What all tasks keep.

  The tasks of an instance are made of the calls of two services and of a few
  requests beside them.  An invariant that all of these keep, every task keeps,
  and so does every run, whatever incidents happen meanwhile.

  Main statements: `Upkeep.task` and `Upkeep.enact`.
-/
import Bearer.Proofs.Fleet.Amid

namespace Bearer.Fleet

variable {n : Nat} {may : Incident n → Prop} {i : Fin n} {inv : MemoryFleet n → Prop}

/-- What a task needs its parts to keep so that it keeps an invariant as a whole. -/
structure Upkeep (may : Incident n → Prop) (i : Fin n) (issuer : Issuer)
    (inv : MemoryFleet n → Prop) : Prop where
  stable : Stable may inv
  freshTokenId : ∀ f, inv f → inv (answer i .freshTokenId f).2
  user : ∀ c f, inv f → inv (answer i (.user c) f).2
  invalidate : ∀ pattern f, inv f → inv (answer i (.cache (.invalidate pattern)) f).2
  session : ∀ t : SessionTask, Upholds may i inv t.service
  revocation : ∀ t : RevocationTask, Upholds may i inv t.service
  revoke : ∀ kind token, Upholds may i inv (issuer.revoke kind token)

namespace Upkeep

variable {issuer : Issuer} (h : Upkeep may i issuer inv)

include h

theorem now : Upholds may i inv Service.now := ensures_now h.stable fun _ hf => hf

theorem issue (kind : TokenKind) (user : UserId) (username : String) (time : Instant) :
    Upholds may i inv (issuer.issue kind user username time) := by
  refine (upholds_lift _).bind fun expiresAt => ?_
  exact Upholds.bind (ensures_ask h.stable .freshTokenId h.freshTokenId) fun _ => upholds_pure _

theorem issuePair (user : UserId) (username : String) :
    Upholds may i inv (issuer.issuePair user username) := by
  refine h.now.bind fun time => ?_
  refine (h.issue .access user username time).bind fun access => ?_
  exact (h.issue .refresh user username time).bind fun refresh => upholds_pure _

theorem verify (kind : TokenKind) (token : String) :
    Upholds may i inv (issuer.verify kind token) :=
  h.now.bind fun _ => upholds_lift _

theorem isRevoked (tokenId : String) : Upholds may i inv (Auth.isRevoked tokenId) := by
  refine Upholds.bind (ensures_ask h.stable (.isRemembered tokenId) fun _ hf => hf) fun known => ?_
  split
  · exact upholds_pure _
  · exact h.revocation (.contains tokenId)

theorem requireNotRevoked (claims : Claims) :
    Upholds may i inv (Auth.requireNotRevoked claims) := by
  refine (h.isRevoked claims.tokenId).bind fun revoked => ?_
  dsimp only
  split
  · exact ensures_throw_bind _ fun _ hf => hf
  refine (h.revocation (.isUserRevoked claims.user claims.issuedAt)).bind fun cutOff => ?_
  split
  · exact upholds_lift (.error _)
  · exact upholds_pure _

theorem revokeOwned (user : UserId) (token : String) :
    Upholds may i inv (Auth.revokeOwned issuer user token) := by
  unfold Auth.revokeOwned
  split
  · exact upholds_pure _
  · split
    · exact upholds_pure _
    refine h.now.bind fun time => ?_
    split
    · exact upholds_pure _
    · exact h.revocation (.add _ _)

theorem login (username password : String) :
    Upholds may i inv (Auth.login issuer username password) := by
  refine Upholds.bind (ensures_user h.stable _ fun f hf => h.user _ f hf) fun user => ?_
  refine (h.issuePair user.id user.username).bind fun tokens => ?_
  refine (h.session (.create user.id tokens.refresh tokens.refreshExpiresAt)).bind fun _ => ?_
  refine Upholds.bind ?_ fun user => upholds_pure _
  refine h.now.bind fun time => ?_
  exact Upholds.bind (ensures_ask h.stable _ fun f hf => h.user _ f hf) fun _ => upholds_pure _

theorem refresh (token : String) : Upholds may i inv (Auth.refresh issuer token) := by
  refine (h.verify .refresh token).bind fun claims => ?_
  refine (h.requireNotRevoked claims).bind fun _ => ?_
  refine (h.session (.getByToken token)).bind fun session => ?_
  dsimp only
  split
  · exact ensures_throw_bind _ fun _ hf => hf
  refine (h.issuePair claims.user claims.username).bind fun tokens => ?_
  refine (h.revocation (.add claims.tokenId claims.expiresAt)).bind fun _ => ?_
  refine h.now.bind fun time => ?_
  split
  · exact (h.session (.rotate claims.user token tokens.refresh _)).bind fun _ => upholds_pure _
  · exact upholds_lift (.error _)

theorem logout (user : UserId) (accessToken refreshToken : String) :
    Upholds may i inv (Auth.logout issuer user accessToken refreshToken) := by
  refine (h.revokeOwned user accessToken).bind fun _ => ?_
  exact (h.revokeOwned user refreshToken).bind fun _ => h.session (.delete user)

theorem revokeAll (user : UserId) : Upholds may i inv (Auth.revokeAll issuer user) := by
  refine h.now.bind fun cutoff => (upholds_lift _).bind fun lastExpiry => ?_
  refine (h.revocation (.revokeUser user cutoff lastExpiry)).bind fun _ => ?_
  refine (h.session (.delete user)).bind fun _ => ?_
  exact Upholds.bind (ensures_cache h.stable _ fun f hf => h.invalidate _ f hf) fun _ =>
    upholds_pure _

theorem holdsToken (user : UserId) (token : String) :
    Upholds may i inv (Auth.holdsToken user token) := by
  refine Upholds.bind (ensures_attempt (h.session (.get user))) fun found => ?_
  split
  · split
    · exact upholds_pure _
    · refine Upholds.bind (ensures_attempt (h.session (.getByToken token))) fun byToken => ?_
      split
      · exact upholds_pure _
      · exact upholds_pure _
      · exact upholds_lift (.error _)
  · exact upholds_pure _
  · exact upholds_pure _
  · exact upholds_lift (.error _)

theorem operation (o : Operation) : Upholds may i inv (o.service issuer) := by
  cases o with
  | login username password => exact h.login username password
  | refresh token => exact h.refresh token
  | logout user accessToken refreshToken => exact h.logout user accessToken refreshToken
  | verify token =>
    refine (h.verify .access token).bind fun claims => ?_
    exact (h.requireNotRevoked claims).bind fun _ => upholds_pure _
  | revoke token => exact (upholds_lift _).bind fun claims => h.revoke claims.kind token
  | revokeAll user => exact h.revokeAll user
  | session user => exact h.session (.get user)
  | holdsToken user token => exact h.holdsToken user token
  | isRevoked tokenId => exact h.isRevoked tokenId
  | tidy =>
    refine (h.session .purge).bind fun sessions => ?_
    exact (h.revocation .purge).bind fun revocations => upholds_pure _

/-- A task keeps what its parts keep. -/
theorem task (t : Task) : Upholds may i inv (t.service issuer) := by
  cases t with
  | operation o => exact h.operation o
  | session t => exact h.session t
  | revocation t => exact h.revocation t
  | invalidate pattern => exact ensures_cache h.stable _ fun f hf => h.invalidate pattern f hf

end Upkeep

/-- An invariant that every task keeps wherever it holds, and every incident of some kind, holds
after every run. -/
theorem Upkeep.enact (hupkeep : ∀ (f : MemoryFleet n) i, inv f → Upkeep may i (f.issuer i) inv)
    (hstable : Stable may inv) {f : MemoryFleet n} (hf : inv f) {acts : List (Act n)}
    (hmay : ∀ a ∈ acts, a.Only may) : inv (f.enact acts) := by
  induction acts generalizing f with
  | nil => exact hf
  | cons a acts ih =>
    have hfirst : a.Only may := hmay a (List.mem_cons_self ..)
    refine ih ?_ fun a' ha' => hmay a' (List.mem_cons_of_mem _ ha')
    cases a with
    | carry i t amid => exact ((hupkeep f i hf).task t).result hf hfirst
    | befall e => exact hstable f e hfirst hf

end Bearer.Fleet
