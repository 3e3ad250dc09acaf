/-
  The conduct of the session and revocation services.

  Each service keeps the rules of conduct, and what it answers is in its
  history.  The rules are stated for any end that follows from that, so that
  they are used one after the other along the lines of a larger service.
-/
import Bearer.Proofs.Service.Conduct
import Bearer.Service.Blacklist
import Bearer.Service.Sessions

namespace Bearer

/-! ## Revocations -/

variable {issuer : Issuer} {o : Operation} {h : History}

open Service

namespace Blacklist

theorem obeys_keep (r : Revocation)
    (hsource : ⟨.revocation (.insert r.tokenId r.expiresAt), .ok ()⟩ ∈ h ∨
      ∃ tokenId time, ⟨.revocation (.findActive tokenId time), .ok (some r)⟩ ∈ h)
    {post : History → Except AuthError Unit → Prop}
    (next : ∀ h' : History, h'.Extends h → post h' (.ok ())) :
    Obeys (conduct issuer o) post h (keep r) := by
  rw [keep, obeys_bind, obeys_now]
  refine ⟨trivial, fun time => ?_⟩
  have hnow : History.Extends (⟨.now, time⟩ :: h) h := History.Extends.step rfl
  dsimp only
  split
  · next ttl _ =>
    rw [obeys_bind, obeys_cache]
    refine ⟨⟨rfl, rfl, ?_⟩, fun reply => next _ (hnow.cons rfl)⟩
    rcases hsource with hinsert | ⟨tokenId, found, hfind⟩
    · exact Or.inl (hnow.mem hinsert)
    · exact Or.inr ⟨tokenId, found, hnow.mem hfind⟩
  · exact next _ hnow

theorem obeys_add {tokenId : String} {expiresAt : Instant}
    (hretires : o.Retires issuer tokenId expiresAt)
    {post : History → Except AuthError Unit → Prop}
    (next : ∀ h' : History, h'.Extends h →
      ⟨.revocation (.insert tokenId expiresAt), .ok ()⟩ ∈ h' → post h' (.ok ()))
    (fail : ∀ (h' : History) e, h'.Failed e → post h' (.error e)) :
    Obeys (conduct issuer o) post h (add tokenId expiresAt) := by
  rw [add, obeys_bind, obeys_revocation]
  refine ⟨hretires, fun reply => ?_⟩
  cases reply with
  | error e => exact fail _ e ⟨_, List.mem_cons_self ..⟩
  | ok =>
    rw [obeys_bind, obeys_now]
    refine ⟨trivial, fun time => obeys_keep _ (Or.inl (by simp)) fun h' hext => ?_⟩
    exact next h' (hext.trans ((History.Extends.step rfl).cons rfl))
      (hext.mem (by simp))

theorem obeys_isRecorded {tokenId : String} {time : Instant}
    {post : History → Except AuthError Bool → Prop}
    (found : ∀ (h' : History) (r : Revocation), h'.Extends h →
      ⟨.revocation (.findActive tokenId time), .ok (some r)⟩ ∈ h' → post h' (.ok true))
    (clear : ∀ h' : History, h'.Extends h →
      ⟨.revocation (.findActive tokenId time), .ok none⟩ ∈ h' → post h' (.ok false))
    (fail : ∀ (h' : History) e, h'.Failed e → post h' (.error e)) :
    Obeys (conduct issuer o) post h (isRecorded tokenId time) := by
  rw [isRecorded, obeys_bind, obeys_revocation]
  refine ⟨trivial, fun reply => ?_⟩
  match reply with
  | .error e => exact fail _ e ⟨_, List.mem_cons_self ..⟩
  | .ok none => exact clear _ (History.Extends.step rfl) (by simp)
  | .ok (some r) =>
    dsimp only
    rw [obeys_bind]
    refine obeys_keep r (Or.inr ⟨tokenId, time, by simp⟩) fun h' hext => ?_
    exact found h' r (hext.trans (History.Extends.step rfl)) (hext.mem (by simp))

theorem obeys_contains {tokenId : String} {post : History → Except AuthError Bool → Prop}
    (found : ∀ h' : History, h'.Refused tokenId → post h' (.ok true))
    (clear : ∀ (h' : History) (time : Instant), h'.Extends h → h'.Told time →
      ⟨.revocation (.findActive tokenId time), .ok none⟩ ∈ h' → post h' (.ok false))
    (fail : ∀ (h' : History) e, h'.Failed e → post h' (.error e)) :
    Obeys (conduct issuer o) post h (contains tokenId) := by
  rw [contains, obeys_bind, obeys_now]
  refine ⟨trivial, fun time => ?_⟩
  dsimp only
  rw [obeys_bind, obeys_cache]
  refine ⟨trivial, fun reply => ?_⟩
  -- The record is asked when nothing is cached and when what is cached has ended.
  have hrecord : Obeys (conduct issuer o) post
      (⟨.cache (.fetch .revocation (Key.blacklist tokenId)), reply⟩ :: ⟨.now, time⟩ :: h)
      (isRecorded tokenId time) := by
    refine obeys_isRecorded (fun h' r hext hmem => ?_) (fun h' hext hmem => ?_) fail
    · exact found h' (Or.inr (Or.inr ⟨r, time, hext.mem (by simp), hmem⟩))
    · exact clear h' time (hext.trans ((History.Extends.step rfl).cons rfl))
        (hext.mem (by simp)) hmem
  cases reply with
  | none => exact hrecord
  | some r =>
    dsimp only
    split
    · next hactive =>
      exact found _ (Or.inr (Or.inl ⟨r, time, by simp [History.Told], by simp, hactive⟩))
    · exact hrecord

theorem obeys_loadCutoff {user : UserId} {post : History → Except AuthError (Option Cutoff) → Prop}
    (next : ∀ (h' : History) (time : Instant) (revokedBefore : Option Instant), h'.Extends h →
      h'.Told time → ⟨.revocation (.findCutoff user time), .ok revokedBefore⟩ ∈ h' →
      post h' (.ok (revokedBefore.map fun t => ⟨user, t⟩)))
    (fail : ∀ (h' : History) e, h'.Failed e → post h' (.error e)) :
    Obeys (conduct issuer o) post h (loadCutoff user) := by
  rw [loadCutoff, obeys_bind, obeys_now]
  refine ⟨trivial, fun time => ?_⟩
  dsimp only
  rw [obeys_bind, obeys_revocation]
  refine ⟨trivial, fun reply => ?_⟩
  have hext : History.Extends
      (⟨.revocation (.findCutoff user time), reply⟩ :: ⟨.now, time⟩ :: h) h :=
    (History.Extends.step rfl).cons rfl
  match reply with
  | .error e => exact fail _ e ⟨_, List.mem_cons_self ..⟩
  | .ok none => exact next _ time none hext (by simp [History.Told]) (by simp)
  | .ok (some revokedBefore) =>
    dsimp only
    -- What the record has just answered may be cached.
    rw [obeys_bind, obeys_cache]
    refine ⟨⟨rfl, rfl, time, by simp⟩, fun reply => ?_⟩
    exact next _ time (some revokedBefore) (hext.cons rfl) (by simp [History.Told]) (by simp)

theorem obeys_revokeUser {user : UserId} {revokedBefore expiresAt : Instant}
    (htold : h.Told revokedBefore) (hoperation : o = .revokeAll user)
    {post : History → Except AuthError Unit → Prop}
    (next : ∀ h' : History, h'.Extends h →
      ⟨.revocation (.insertCutoff user revokedBefore expiresAt), .ok ()⟩ ∈ h' → post h' (.ok ()))
    (fail : ∀ h' e, post h' (.error e)) :
    Obeys (conduct issuer o) post h (revokeUser user revokedBefore expiresAt) := by
  rw [revokeUser, obeys_bind, obeys_revocation]
  refine ⟨⟨htold, hoperation⟩, fun reply => ?_⟩
  cases reply with
  | error e => exact fail _ e
  | ok =>
    dsimp only
    rw [obeys_bind]
    refine obeys_loadCutoff (fun h' _ _ hext _ _ => ?_) fun h' e _ => fail h' e
    exact next h' (hext.trans (History.Extends.step rfl)) (hext.mem (by simp))

theorem obeys_isUserRevoked {user : UserId} {issuedAt : Instant}
    {post : History → Except AuthError Bool → Prop}
    (revoked : ∀ h' : History, h'.CutOff user issuedAt → post h' (.ok true))
    (cached : ∀ (h' : History) (cutoff : Cutoff), h'.Extends h →
      ⟨.cache (.fetch .cutoff (Key.cutoff user)), some cutoff⟩ ∈ h' →
      cutoff.revokes issuedAt = false → post h' (.ok false))
    (recorded : ∀ (h' : History) (time : Instant) (revokedBefore : Option Instant), h'.Extends h →
      h'.Told time → ⟨.revocation (.findCutoff user time), .ok revokedBefore⟩ ∈ h' →
      (∀ t ∈ revokedBefore, ¬ issuedAt ≤ t) → post h' (.ok false))
    (fail : ∀ (h' : History) e, h'.Failed e → post h' (.error e)) :
    Obeys (conduct issuer o) post h (isUserRevoked user issuedAt) := by
  rw [isUserRevoked, obeys_bind, obeys_cache]
  refine ⟨trivial, fun reply => ?_⟩
  have hext : History.Extends (⟨.cache (.fetch .cutoff (Key.cutoff user)), reply⟩ :: h) h :=
    History.Extends.step rfl
  cases reply with
  | some cutoff =>
    dsimp only
    rw [pure_bind, obeys_pure, Option.any_some]
    cases hrevokes : cutoff.revokes issuedAt with
    | true => exact revoked _ (Or.inl ⟨cutoff, by simp, hrevokes⟩)
    | false => exact cached _ cutoff hext (by simp) hrevokes
  | none =>
    dsimp only
    rw [obeys_bind]
    refine obeys_loadCutoff (fun h' time revokedBefore hext' htold hmem => ?_) fail
    dsimp only
    rw [obeys_pure]
    cases revokedBefore with
    | none => exact recorded h' time none (hext'.trans hext) htold hmem (by simp)
    | some t =>
      rw [Option.map_some, Option.any_some]
      -- The record's cutoff counts as the cached one would.
      cases hrevokes : Cutoff.revokes ⟨user, t⟩ issuedAt with
      | true =>
        refine revoked _ (Or.inr ⟨time, t, htold, hmem, ?_⟩)
        simpa [Cutoff.revokes] using hrevokes
      | false =>
        refine recorded h' time (some t) (hext'.trans hext) htold hmem ?_
        simpa [Cutoff.revokes] using hrevokes

end Blacklist

/-! ## Sessions -/

namespace Sessions

theorem obeys_invalidate {user : UserId} {post : History → Except AuthError Unit → Prop}
    (next : ∀ h' : History, h'.Extends h → post h' (.ok ())) :
    Obeys (conduct issuer o) post h (invalidate user) := by
  rw [invalidate, obeys_bind, obeys_cache]
  exact ⟨trivial, fun reply => next _ (History.Extends.step rfl)⟩

theorem obeys_keep (s : Session) {post : History → Except AuthError Unit → Prop}
    (next : ∀ h' : History, h'.Extends h → post h' (.ok ())) :
    Obeys (conduct issuer o) post h (keep s) := by
  rw [keep, obeys_bind, obeys_now]
  refine ⟨trivial, fun time => ?_⟩
  have hnow : History.Extends (⟨.now, time⟩ :: h) h := History.Extends.step rfl
  dsimp only
  split
  · rw [obeys_bind, obeys_cache]
    exact ⟨⟨rfl, rfl⟩, fun reply => next _ (hnow.cons rfl)⟩
  · exact obeys_invalidate fun h' hext => next h' (hext.trans hnow)

theorem obeys_create {user : UserId} {token : String} {expiresAt : Instant}
    (htokenless : h.Tokenless) (hissued : h.Issued issuer.config .refresh user token)
    (hopens : o.Opens) {post : History → Except AuthError Session → Prop}
    (next : ∀ (h' : History) (s : Session), (∀ e ∈ h, e ∈ h') → post h' (.ok s))
    (fail : ∀ h' e, post h' (.error e)) :
    Obeys (conduct issuer o) post h (create user token expiresAt) := by
  rw [create, obeys_bind, obeys_now]
  refine ⟨trivial, fun createdAt => ?_⟩
  dsimp only
  rw [obeys_bind, obeys_session]
  have hnow : History.Extends (⟨.now, createdAt⟩ :: h) h := History.Extends.step rfl
  refine ⟨⟨hnow.tokenless htokenless, hissued.of_subset fun e => hnow.mem, hopens⟩,
    fun reply => ?_⟩
  cases reply with
  | error e => exact fail _ e
  | ok s =>
    dsimp only
    rw [obeys_bind]
    refine obeys_keep s fun h' hext => next h' s fun e he => hext.mem ?_
    exact List.mem_cons_of_mem _ (hnow.mem he)

theorem obeys_load {user : UserId} {ended : Bool} {post : History → Except AuthError Session → Prop}
    (next : ∀ h' result, post h' result) :
    Obeys (conduct issuer o) post h (load user ended) := by
  rw [load, obeys_bind, obeys_now]
  refine ⟨trivial, fun time => ?_⟩
  dsimp only
  rw [obeys_bind, obeys_session]
  refine ⟨trivial, fun reply => ?_⟩
  match reply with
  | .error e => exact next _ _
  | .ok none => exact next _ _
  | .ok (some s) =>
    dsimp only
    rw [obeys_bind]
    exact obeys_keep s fun h' _ => next h' _

theorem obeys_get {user : UserId} {post : History → Except AuthError Session → Prop}
    (next : ∀ h' result, post h' result) :
    Obeys (conduct issuer o) post h (get user) := by
  rw [get, obeys_bind, obeys_cache]
  refine ⟨trivial, fun reply => ?_⟩
  cases reply with
  | none => exact obeys_load next
  | some s =>
    dsimp only
    rw [obeys_bind, obeys_now]
    refine ⟨trivial, fun time => ?_⟩
    dsimp only
    split
    · rw [obeys_bind]
      exact obeys_invalidate fun h' _ => obeys_load next
    · exact next _ _

theorem obeys_getByToken {token : String} {post : History → Except AuthError Session → Prop}
    (next : ∀ (h' : History) result, h'.Extends h → post h' result) :
    Obeys (conduct issuer o) post h (getByToken token) := by
  rw [getByToken, obeys_bind, obeys_now]
  refine ⟨trivial, fun time => ?_⟩
  dsimp only
  rw [obeys_bind, obeys_session]
  refine ⟨trivial, fun reply => ?_⟩
  have hext (reply) : History.Extends
      (⟨.session (.findByToken token time), reply⟩ :: ⟨.now, time⟩ :: h) h :=
    (History.Extends.step rfl).cons rfl
  match reply with
  | .error e => exact next _ _ (hext _)
  | .ok none => exact next _ _ (hext _)
  | .ok (some s) => exact next _ _ (hext _)

theorem obeys_rotate {user : UserId} {old token : String} {ttl : Duration} {claims : Claims}
    (htokenless : h.Tokenless) (hissued : h.Issued issuer.config .refresh user token)
    (hoperation : o = .refresh old) (hpeek : issuer.config.peek old = .ok claims)
    (huser : claims.user = user) {post : History → Except AuthError Unit → Prop}
    (next : ∀ (h' : History) (expiresAt : Instant), (∀ e ∈ h, e ∈ h') →
      ⟨.session (.updateToken user (some old) token expiresAt), .ok true⟩ ∈ h' →
      post h' (.ok ()))
    (fail : ∀ h' e, post h' (.error e)) :
    Obeys (conduct issuer o) post h (rotate user old token ttl) := by
  rw [rotate, writeToken, obeys_bind, obeys_now]
  refine ⟨trivial, fun time => ?_⟩
  have hnow : History.Extends (⟨.now, time⟩ :: h) h := History.Extends.step rfl
  dsimp only
  rw [obeys_bind, obeys_lift]
  cases deadline time ttl with
  | error e => exact fail _ e
  | ok expiresAt =>
    dsimp only
    rw [obeys_bind, obeys_session]
    refine ⟨⟨hnow.tokenless htokenless, hissued.of_subset fun e => hnow.mem,
      old, claims, hoperation, rfl, hpeek, huser⟩, fun reply => ?_⟩
    match reply with
    | .error e => exact fail _ e
    | .ok false => exact fail _ _
    | .ok true =>
      refine obeys_invalidate fun h' hext => next h' expiresAt (fun e he => hext.mem ?_)
        (hext.mem (by simp))
      exact List.mem_cons_of_mem _ (hnow.mem he)

theorem obeys_delete {user : UserId} (hcloses : o.Closes user)
    {post : History → Except AuthError Unit → Prop}
    (next : ∀ h' : History, h'.Extends h →
      (∃ found, ⟨.session (.deleteByUser user), .ok found⟩ ∈ h') → post h' (.ok ()))
    (fail : ∀ h' e, post h' (.error e)) :
    Obeys (conduct issuer o) post h (delete user) := by
  rw [delete, obeys_bind, obeys_session]
  refine ⟨hcloses, fun reply => ?_⟩
  cases reply with
  | error e => exact fail _ e
  | ok found =>
    refine obeys_invalidate fun h' hext => next h' (hext.trans (History.Extends.step rfl))
      ⟨found, hext.mem (by simp)⟩

end Sessions

end Bearer
