/-
  What the checks of a token answer.

  Whether a token is revoked, and whether a cutoff covers it, is answered from
  what an instance remembers, from its caches and from the record, in this
  order.  A token that is not revoked is looked up under its own key only, so
  the cutoff is then found as it was before.

  Main statements: `perform_isRevoked`, `perform_isUserRevoked` and
  `perform_requireNotRevoked`.
-/
import Bearer.Proofs.Fleet.Perform

namespace Bearer.Fleet

variable {n : Nat} {f : MemoryFleet n} {i : Fin n} {tokenId : String} {user : UserId}

/-- Whether a token is revoked as an instance sees it: it remembers so, or a revocation that counts
is cached or on record. -/
def lists (f : MemoryFleet n) (i : Fin n) (tokenId : String) : Bool :=
  (f.revoked i).contains f.wall tokenId ||
    (f.finds i .revocation (Key.blacklist tokenId)).any (fun r => r.active f.wall) ||
    (f.origin.revocations.findActive tokenId f.wall).isSome

/-- The cutoff of a user as an instance sees it: the cached one or, if none is, the one on
record. -/
def cutoff? (f : MemoryFleet n) (i : Fin n) (user : UserId) : Option Cutoff :=
  (f.finds i .cutoff (Key.cutoff user)).or
    ((f.origin.revocations.findCutoff user f.wall).map fun t => ⟨user, t⟩)

/-- Whether the tokens of a user that were issued at a time are revoked as an instance sees it. -/
def cutsOff (f : MemoryFleet n) (i : Fin n) (user : UserId) (issuedAt : Instant) : Bool :=
  (f.cutoff? i user).any fun c => c.revokes issuedAt

/-! ## Tokens -/

/-- Caching a revocation ends well, and does nothing but cache it, unless it no longer matters. -/
theorem yields_keepBlacklisted {σ ρ : Type} [Origin σ] [SharedBackend ρ] {f : Fleet σ ρ n} (r : Revocation)
    {post : Except AuthError Unit → Fleet σ ρ n → Prop} (ended : post (.ok ()) f)
    (kept : ∀ ttl, post (.ok ())
      (answer i (.cache (.store .revocation (Key.blacklist r.tokenId) r (some ttl))) f).2) :
    Yields i (Blacklist.keep r) post f := by
  rw [Blacklist.keep, yields_bind, yields_now]
  dsimp only
  split
  · rw [yields_bind, yields_cache]
    exact kept _
  · exact ended

theorem yields_keepRevocation (r : Revocation)
    {post : Except AuthError Unit → MemoryFleet n → Prop}
    (next : ∀ g, g.origin = f.origin → g.wall = f.wall → post (.ok ()) g) :
    Yields i (Blacklist.keep r) post f :=
  yields_keepBlacklisted r (next f rfl rfl) fun _ => next _ rfl rfl

/-- A token goes on record as revoked. -/
theorem yields_add (tokenId : String) (expiresAt : Instant)
    {post : Except AuthError Unit → MemoryFleet n → Prop}
    (next : ∀ g, g.origin = { f.origin with
      revocations := f.origin.revocations.insert f.wall tokenId expiresAt } → g.wall = f.wall →
      post (.ok ()) g) :
    Yields i (Blacklist.add tokenId expiresAt) post f := by
  rw [Blacklist.add, yields_bind, yields_revocation]
  dsimp only [RevocationStore.perform]
  rw [yields_bind, yields_now]
  exact yields_keepRevocation _ fun g horigin hwall => next g horigin hwall

/-- The record is asked, and a revocation found there is cached. -/
theorem yields_isRecorded (tokenId : String)
    {post : Except AuthError Bool → MemoryFleet n → Prop}
    (found : (f.origin.revocations.findActive tokenId f.wall).isSome = true →
      ∀ g, post (.ok true) g)
    (clear : f.origin.revocations.findActive tokenId f.wall = none →
      post (.ok false) (answer i (.revocation (.findActive tokenId f.wall)) f).2) :
    Yields i (Blacklist.isRecorded tokenId f.wall) post f := by
  rw [Blacklist.isRecorded, yields_bind, yields_revocation]
  dsimp only [RevocationStore.perform]
  cases hfound : f.origin.revocations.findActive tokenId f.wall with
  | none => exact clear hfound
  | some r =>
    dsimp only
    rw [yields_bind]
    exact yields_keepRevocation r fun g _ _ => found (by rw [hfound]; rfl) g

/-- A token is found to be revoked as the instance sees it.  If it is not, nothing but its own key
has been looked up. -/
theorem yields_isRevoked (f : MemoryFleet n) (i : Fin n) (tokenId : String)
    {post : Except AuthError Bool → MemoryFleet n → Prop}
    (revoked : f.lists i tokenId = true → ∀ g, post (.ok true) g)
    (clear : f.lists i tokenId = false →
      ∀ g, (∀ user, g.cutoff? i user = f.cutoff? i user) → post (.ok false) g) :
    Yields i (Auth.isRevoked tokenId) post f := by
  unfold lists at revoked clear
  rw [Auth.isRevoked, yields_bind, yields_isRemembered]
  dsimp only
  split
  · next hremembered => exact revoked (by rw [hremembered]; rfl) f
  next hforgotten =>
  rw [Bool.not_eq_true] at hforgotten
  rw [hforgotten, Bool.false_or] at revoked clear
  rw [Blacklist.contains, yields_bind, yields_now]
  dsimp only
  rw [yields_bind, yields_fetch]
  dsimp only
  -- What is cached counts only if it is active; otherwise the record is asked.
  have hrecord : (f.finds i .revocation (Key.blacklist tokenId)).any (fun r => r.active f.wall) =
      false → Yields i (Blacklist.isRecorded tokenId f.wall) post
        (answer i (.cache (.fetch .revocation (Key.blacklist tokenId))) f).2 := by
    intro hended
    rw [hended, Bool.false_or] at revoked clear
    refine yields_isRecorded tokenId (fun hfound => revoked hfound) fun hnone => ?_
    refine clear (by rw [Option.isSome_eq_false_iff, Option.isNone_iff_eq_none]; exact hnone) _
      fun user => ?_
    unfold cutoff?
    have hfinds := f.finds_answer i i .cutoff
      (c := .fetch .revocation (Key.blacklist tokenId))
      (Key.blacklist_ne_cutoff tokenId user).symm fun _ heq => CacheCall.noConfusion heq
    exact congrArg (Option.or · _) hfinds
  cases hcached : f.finds i .revocation (Key.blacklist tokenId) with
  | none => exact hrecord (by rw [hcached]; rfl)
  | some r =>
    dsimp only
    split
    · next hactive =>
      refine revoked ?_ _
      rw [hcached, Option.any_some, hactive, Bool.true_or]
    · next hended =>
      refine hrecord ?_
      rw [hcached, Option.any_some, Bool.eq_false_iff]
      exact hended

theorem perform_isRevoked (f : MemoryFleet n) (i : Fin n) (tokenId : String) :
    (f.perform i (Auth.isRevoked tokenId)).1 = .ok (f.lists i tokenId) := by
  have hyields : Yields i (Auth.isRevoked tokenId)
      (fun result _ => result = .ok (f.lists i tokenId)) f :=
    yields_isRevoked f i tokenId (fun hlists _ => by rw [hlists])
      fun hclear _ _ => by rw [hclear]
  exact hyields

/-! ## Users -/

theorem perform_isUserRevoked (f : MemoryFleet n) (i : Fin n) (user : UserId)
    (issuedAt : Instant) : (f.perform i (Blacklist.isUserRevoked user issuedAt)).1 =
      .ok (f.cutsOff i user issuedAt) := by
  have hyields : Yields i (Blacklist.isUserRevoked user issuedAt)
      (fun result _ => result = .ok (f.cutsOff i user issuedAt)) f := by
    rw [Blacklist.isUserRevoked, yields_bind, yields_fetch]
    dsimp only
    unfold cutsOff cutoff?
    cases hcached : f.finds i .cutoff (Key.cutoff user) with
    | some c => exact rfl
    | none =>
      dsimp only
      rw [yields_bind, Blacklist.loadCutoff, yields_bind, yields_now]
      dsimp only
      rw [yields_bind, yields_revocation]
      dsimp only [RevocationStore.perform]
      have horigin : (answer i (.cache (.fetch .cutoff (Key.cutoff user))) f).2.origin =
          f.origin := rfl
      rw [horigin, answer_wall, Option.none_or]
      cases f.origin.revocations.findCutoff user f.wall with
      | none => exact rfl
      | some t => exact rfl
  exact hyields

/-! ## Both together -/

/-- A token is refused exactly if it is revoked, by itself or with all tokens of its user, as the
instance sees it beforehand. -/
theorem perform_requireNotRevoked (f : MemoryFleet n) (i : Fin n) (claims : Claims) :
    (f.perform i (Auth.requireNotRevoked claims)).1 =
      if f.lists i claims.tokenId || f.cutsOff i claims.user claims.issuedAt then
        .error .tokenBlacklisted
      else .ok () := by
  have hyields : Yields i (Auth.requireNotRevoked claims) (fun result _ => result =
      if f.lists i claims.tokenId || f.cutsOff i claims.user claims.issuedAt then
        .error .tokenBlacklisted
      else .ok ()) f := by
    rw [Auth.requireNotRevoked, yields_bind]
    refine yields_isRevoked f i _ (fun hlists g => ?_) fun hclear g hsame => ?_
    · rw [hlists, Bool.true_or, if_pos rfl]
      exact rfl
    · dsimp only
      have hcut : (g.perform i (Blacklist.isUserRevoked claims.user claims.issuedAt)).1 =
          .ok (f.cutsOff i claims.user claims.issuedAt) := by
        rw [perform_isUserRevoked, cutsOff, hsame, cutsOff]
      rw [if_neg Bool.false_ne_true, hclear, Bool.false_or, yields_bind]
      unfold Yields
      rw [hcut]
      dsimp only
      split
      · exact rfl
      · exact rfl
  exact hyields

end Bearer.Fleet
