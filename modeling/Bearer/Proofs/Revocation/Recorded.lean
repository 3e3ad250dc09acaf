/-
  What is revoked is what is checked.

  A token is read in three ways: with its expiry when it is judged, without it
  when it is looked at or revoked, and without its signature when only its id is
  wanted.  A token that is accepted reads the same in all of them, so what is
  revoked is the id that the checks look up.  Revoking reads it twice, the second
  time as a token of the kind that it was found to have the first time, and can
  then fail only where the record does.

  Main statements: `statedId_of_peek`, `yields_revoke`, `perform_revoke`, `Registers.lists` and
  `revoke_of_accepted`.
-/
import Bearer.Proofs.Fleet.Start
import Bearer.Proofs.Revocation.Checks

namespace Bearer

/-- A token that can be read states the id that its claims have, unless that is empty. -/
theorem TokenConfig.statedId_of_peek {c : TokenConfig} {token : String} {claims : Claims}
    (h : c.peek token = .ok claims) :
    Token.statedId token =
      if claims.tokenId = "" then .error .tokenMalformed else .ok claims.tokenId := by
  obtain ⟨p, hp, -, -, -, hclaims⟩ := decode_eq_ok_iff.1 h
  obtain ⟨parts, stated, hparts, hstated, hpayload⟩ := parts_of_authentic hp
  obtain ⟨-, -, -, -, hid, -⟩ := claims?_eq_some_iff.1 hclaims
  simp only [Token.statedId, hparts, hstated, hpayload, hid]
  split
  · rfl
  · rfl

namespace Fleet

section

variable {σ ρ : Type} [Origin σ] [SharedBackend ρ]
variable {n : Nat} {f g : Fleet σ ρ n} {i : Fin n} {issuer : Issuer} {token : String}
variable {claims : Claims}

/-- The fleet after an instance has remembered a token and put it on record as revoked. -/
def marked (f : Fleet σ ρ n) (i : Fin n) (claims : Claims) : Fleet σ ρ n :=
  (answer i (.revocation (.insert claims.tokenId claims.expiresAt))
    (answer i (.remember claims.tokenId claims.expiresAt) f).2).2

/-- A token that can be read is passed over as expired, or it is remembered and put on record; if
the record takes it, it may be cached as well. -/
theorem yields_revoke (hreports : issuer.reports = true)
    (hpeek : issuer.config.peek token = .ok claims)
    {post : Except AuthError Unit → Fleet σ ρ n → Prop}
    (expired : claims.expiresAt ≤ f.wall → post (.ok ()) f)
    (refused : ∀ e, f.wall < claims.expiresAt →
      (Origin.revocation (.insert claims.tokenId claims.expiresAt) f.wall f.origin).1 = .error e →
      post (.error e) (f.marked i claims))
    (taken : f.wall < claims.expiresAt →
      (Origin.revocation (.insert claims.tokenId claims.expiresAt) f.wall f.origin).1 = .ok () →
      post (.ok ()) (f.marked i claims) ∧
        ∀ (r : Revocation) ttl, r.tokenId = claims.tokenId → post (.ok ())
          (answer i (.cache (.store .revocation (Key.blacklist r.tokenId) r (some ttl)))
            (f.marked i claims)).2) :
    Yields i (Auth.revoke issuer token) post f := by
  rw [Auth.revoke, yields_bind, yields_peek, hpeek]
  dsimp only
  -- The token is read again, and has the kind that it was found to have.
  rw [Issuer.revoke, yields_bind, yields_lift, hpeek]
  dsimp only
  rw [if_neg (not_not_intro rfl), yields_bind, yields_now]
  dsimp only
  by_cases hended : claims.expiresAt ≤ f.wall
  · rw [if_pos hended]
    exact expired hended
  have hlive : f.wall < claims.expiresAt := Instant.not_le.1 hended
  rw [if_neg hended, yields_bind, yields_ask]
  dsimp only
  rw [if_pos hreports, Blacklist.add, yields_bind, yields_recorded]
  have hreply : (answer i (.revocation (.insert claims.tokenId claims.expiresAt))
      (answer i (.remember claims.tokenId claims.expiresAt) f).2).1 =
      (Origin.revocation (.insert claims.tokenId claims.expiresAt) f.wall f.origin).1 := rfl
  rw [hreply]
  cases hanswer : (Origin.revocation (.insert claims.tokenId claims.expiresAt) f.wall
      f.origin).1 with
  | error e => exact refused e hlive hanswer
  | ok u =>
    dsimp only
    rw [yields_bind, yields_now]
    obtain ⟨hmarked, hcached⟩ := taken hlive hanswer
    exact yields_keepBlacklisted _ hmarked fun ttl => hcached _ ttl rfl

/-- Whether an instance has recorded a token as revoked: it remembers so until the token expires,
the record has taken it, and nothing else is remembered otherwise than before. -/
structure Registers (f : Fleet σ ρ n) (i : Fin n) (claims : Claims) (g : Fleet σ ρ n) : Prop where
  wall : g.wall = f.wall
  recorded : Origin.revocation (.insert claims.tokenId claims.expiresAt) f.wall f.origin =
    (.ok (), g.origin)
  remembered : (g.revoked i).entries.get? claims.tokenId = some claims.expiresAt
  others : ∀ (j : Fin n) other later, other ≠ claims.tokenId → f.wall ≤ later →
    (g.revoked j).contains later other = (f.revoked j).contains later other

theorem registers_marked (hanswer :
      (Origin.revocation (.insert claims.tokenId claims.expiresAt) f.wall f.origin).1 = .ok ()) :
    f.Registers i claims (f.marked i claims) where
  wall := rfl
  recorded := Prod.ext hanswer rfl
  remembered := by
    rw [marked, answer_revoked]
    dsimp only
    rw [answer_revoked]
    dsimp only
    rw [if_pos rfl, RevokedTokens.remember, Table.get?_insert_self]
  others j other later hne hlater := by
    rw [marked, answer_revoked]
    dsimp only
    rw [answer_revoked]
    dsimp only
    split
    · next heq => rw [heq, RevokedTokens.contains_remember _ hlater, if_neg hne]
    · rfl

/-- Caching does not change what has been recorded. -/
theorem Registers.cached (h : f.Registers i claims g) (c : CacheCall) :
    f.Registers i claims (answer i (.cache c) g).2 where
  wall := h.wall
  recorded := h.recorded
  remembered := by
    rw [answer_revoked]
    exact h.remembered
  others j other later hne hlater := by
    rw [answer_revoked]
    exact h.others j other later hne hlater

/-- Revoking a token that can be read fails only if the record refuses it, with the same error; if
it succeeds before the token has expired, the token is recorded as revoked. -/
theorem perform_revoke (f : Fleet σ ρ n) (i : Fin n) (hreports : issuer.reports = true)
    (hpeek : issuer.config.peek token = .ok claims) :
    (∀ e, (f.perform i (Auth.revoke issuer token)).1 = .error e →
      (Origin.revocation (.insert claims.tokenId claims.expiresAt) f.wall f.origin).1 = .error e) ∧
    (f.wall < claims.expiresAt → (f.perform i (Auth.revoke issuer token)).1 = .ok () →
      f.Registers i claims (f.perform i (Auth.revoke issuer token)).2) := by
  have hyields : Yields i (Auth.revoke issuer token) (fun result g =>
      (∀ e, result = .error e →
        (Origin.revocation (.insert claims.tokenId claims.expiresAt) f.wall f.origin).1 =
          .error e) ∧
      (f.wall < claims.expiresAt → result = .ok () → f.Registers i claims g)) f := by
    refine yields_revoke hreports hpeek (fun hended => ?_) (fun e hlive hanswer => ?_)
      fun hlive hanswer => ?_
    · exact ⟨nofun, fun hlive => absurd hended (Instant.not_le.2 hlive)⟩
    · refine ⟨fun e' heq => ?_, nofun⟩
      cases heq
      exact hanswer
    · have hregisters : f.Registers i claims (f.marked i claims) := registers_marked hanswer
      exact ⟨⟨nofun, fun _ _ => hregisters⟩, fun r ttl _ => ⟨nofun, fun _ _ => hregisters.cached _⟩⟩
  exact hyields

end

/-! ## What instances then answer -/

variable {n : Nat} {f g : MemoryFleet n} {i j : Fin n} {issuer : Issuer} {token : String}
variable {claims : Claims}

theorem Registers.revocations (h : f.Registers i claims g) : g.origin.revocations =
    f.origin.revocations.insert f.wall claims.tokenId claims.expiresAt :=
  congrArg MemoryOrigin.revocations (congrArg Prod.snd h.recorded).symm

theorem Registers.row (h : f.Registers i claims g) {other : String} (hne : other ≠ claims.tokenId) :
    g.origin.revocations.rows.get? other = f.origin.revocations.rows.get? other := by
  rw [h.revocations, RevocationStore.insert, Table.get?_insert, if_neg hne]

/-- Every instance finds a recorded token on record, and any other one as it did before if it finds
the same under its key. -/
theorem Registers.lists (h : f.Registers i claims g) (hlive : f.wall < claims.expiresAt)
    (hfinds : ∀ other, other ≠ claims.tokenId →
      g.finds j .revocation (Key.blacklist other) = f.finds j .revocation (Key.blacklist other)) :
    g.lists j claims.tokenId = true ∧
      ∀ other, other ≠ claims.tokenId → g.lists j other = f.lists j other := by
  constructor
  · have huntil : g.origin.revocations.RevokedUntil claims.tokenId claims.expiresAt := by
      rw [h.revocations]
      exact RevocationStore.revokedUntil_insert ..
    have hfound : (g.origin.revocations.findActive claims.tokenId g.wall).isSome = true := by
      rw [Option.isSome_iff_ne_none, h.wall]
      exact RevocationStore.findActive_ne_none huntil hlive
    rw [Fleet.lists, hfound, Bool.or_true]
  · intro other hne
    have hrow := h.row hne
    rw [Fleet.lists, Fleet.lists, hfinds other hne, h.wall,
      h.others j other f.wall hne (Instant.le_refl _)]
    simp only [RevocationStore.findActive, hrow]

/-- Neither remembering a token nor putting it on record changes what is cached. -/
theorem finds_marked (f : MemoryFleet n) (i j : Fin n) (claims : Claims) (kind : Kind)
    (key : String) : (f.marked i claims).finds j kind key = f.finds j kind key := by
  unfold finds
  rw [marked, answer_clock, answer_clock, answer_shared, answer_cache]
  dsimp only
  rw [answer_shared, answer_cache]

/-- With the record in memory, revoking a token that can be read succeeds.  If it has not expired,
it is recorded as revoked, and nothing cached about another token has changed. -/
theorem perform_revoke_memory (f : MemoryFleet n) (i : Fin n) (hreports : issuer.reports = true)
    (hpeek : issuer.config.peek token = .ok claims) :
    (f.perform i (Auth.revoke issuer token)).1 = .ok () ∧
    (f.wall < claims.expiresAt → ∀ j other, other ≠ claims.tokenId →
      (f.perform i (Auth.revoke issuer token)).2.finds j .revocation (Key.blacklist other) =
        f.finds j .revocation (Key.blacklist other)) := by
  have hyields : Yields i (Auth.revoke issuer token) (fun result g => result = .ok () ∧
      (f.wall < claims.expiresAt → ∀ j other, other ≠ claims.tokenId →
        g.finds j .revocation (Key.blacklist other) =
          f.finds j .revocation (Key.blacklist other))) f := by
    refine yields_revoke hreports hpeek (fun hended => ⟨rfl, fun _ _ _ _ => rfl⟩)
      (fun e _ hanswer => ?_) fun _ _ => ⟨⟨rfl, fun _ j other _ => finds_marked ..⟩, ?_⟩
    · cases hanswer
    · intro r ttl hr
      refine ⟨rfl, fun _ j other hne => ?_⟩
      have hreach : ¬ (CacheCall.store .revocation (Key.blacklist r.tokenId) r (some ttl)).Reaches
          (Key.blacklist other) :=
        fun heq => hne ((Key.blacklist_injective heq).trans hr)
      rw [finds_answer _ i j .revocation hreach nofun, finds_marked]
  exact hyields

/-- A token that has been accepted once reads the same wherever it is read, and states its id
unless that is empty.  Revoking it fails only if the record refuses it.  Where that succeeds before
the token has expired, just its id has been recorded as revoked until then, by the instance and on
record.  With the record in memory it always succeeds; every instance then finds the token revoked,
and any other one as it did before. -/
theorem revoke_of_accepted (hreports : issuer.reports = true) {kind : TokenKind} {now : Instant}
    (haccepted : issuer.config.verify kind now token = .ok claims) :
    issuer.config.peek token = .ok claims ∧
    Token.statedId token =
      (if claims.tokenId = "" then .error .tokenMalformed else .ok claims.tokenId) ∧
    (∀ (σ ρ : Type) [Origin σ] [SharedBackend ρ] (n : Nat) (f : Fleet σ ρ n) (i : Fin n),
      (∀ e, (f.perform i (Auth.revoke issuer token)).1 = .error e →
        (Origin.revocation (.insert claims.tokenId claims.expiresAt) f.wall f.origin).1 =
          .error e) ∧
      (f.wall < claims.expiresAt → (f.perform i (Auth.revoke issuer token)).1 = .ok () →
        f.Registers i claims (f.perform i (Auth.revoke issuer token)).2)) ∧
    ∀ (n : Nat) (f : MemoryFleet n) (i : Fin n),
      (f.perform i (Auth.revoke issuer token)).1 = .ok () ∧
      (f.wall < claims.expiresAt →
        let g := (f.perform i (Auth.revoke issuer token)).2
        g.origin.revocations.RevokedUntil claims.tokenId claims.expiresAt ∧
        (∀ other, other ≠ claims.tokenId →
          g.origin.revocations.rows.get? other = f.origin.revocations.rows.get? other) ∧
        ∀ j, (g.perform j (Auth.isRevoked claims.tokenId)).1 = .ok true ∧
          ∀ other, other ≠ claims.tokenId → (g.perform j (Auth.isRevoked other)).1 =
            (f.perform j (Auth.isRevoked other)).1) := by
  have hpeek : issuer.config.peek token = .ok claims := (TokenConfig.verify_eq_ok_iff.1 haccepted).1
  refine ⟨hpeek, TokenConfig.statedId_of_peek hpeek,
    fun _ _ _ _ _ f i => f.perform_revoke i hreports hpeek, fun n f i => ?_⟩
  obtain ⟨hok, hfinds⟩ := f.perform_revoke_memory i hreports hpeek
  refine ⟨hok, fun hlive => ?_⟩
  have hregisters := (f.perform_revoke i hreports hpeek).2 hlive hok
  refine ⟨?_, fun other hne => hregisters.row hne, fun j => ?_⟩
  · rw [hregisters.revocations]
    exact RevocationStore.revokedUntil_insert ..
  · obtain ⟨hrevoked, hothers⟩ := hregisters.lists hlive (hfinds hlive j)
    refine ⟨by rw [perform_isRevoked, hrevoked], fun other hne => ?_⟩
    rw [perform_isRevoked, perform_isRevoked, hothers other hne]

open Demo

/-- An access token of the demo fleet, accepted at the start and revoked at the first instance, is
revoked at the second one as well, and no other token is. -/
theorem revoke_of_accepted_demo :
    let token := demoToken .access .epoch demoMinute 1
    let claims := demoClaims .access .epoch demoMinute 1
    Token.statedId token = .ok claims.tokenId ∧
      demo.Registers 0 claims (demo.perform 0 (Auth.revoke (demo.issuer 0) token)).2 ∧
      ((demo.perform 0 (Auth.revoke (demo.issuer 0) token)).2.perform 1
        (Auth.isRevoked claims.tokenId)).1 = .ok true ∧
      ((demo.perform 0 (Auth.revoke (demo.issuer 0) token)).2.perform 1
        (Auth.isRevoked "other")).1 = .ok false := by
  intro token claims
  have haccepted : (demo.issuer 0).config.verify .access .epoch token = .ok claims :=
    TokenConfig.verify_eq_ok_iff.2
      ⟨peek_demoToken .access (by decide) (by decide) (by decide) 1 0, rfl, by decide⟩
  -- What the text of the token is does not matter from here on.
  generalize token = token at haccepted ⊢
  have hreports : (demo.issuer 0).reports = true := rfl
  obtain ⟨-, hid, hany, hmemory⟩ := revoke_of_accepted hreports haccepted
  have hlive : demo.wall < claims.expiresAt := by decide
  obtain ⟨hok, hrecorded⟩ := hmemory 2 demo 0
  obtain ⟨-, -, hchecked⟩ := hrecorded hlive
  refine ⟨hid.trans (if_neg (by decide)), (hany _ _ 2 demo 0).2 hlive hok, (hchecked 1).1, ?_⟩
  rw [(hchecked 1).2 "other" (by decide), perform_isRevoked]
  rfl

end Fleet

end Bearer
