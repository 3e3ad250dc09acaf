/-
  Tokens that nothing speaks against.

  A token is spared if no revocation of it lasts beyond some time, be it
  remembered, cached or on record, and no cutoff covers its issue.  Runs keep it
  so unless they revoke more, and an instance that is asked about a token that
  is spared has no reason to refuse it.

  Main statements: `preserved_spared`, `preserved_uncut` and
  `verify_of_spared`.
-/
import Bearer.Proofs.Fleet.Start
import Bearer.Proofs.Store.Revocation

namespace Bearer

open Fleet

variable {n : Nat} {f : MemoryFleet n} {i j : Fin n} {h : History} {r : Request}
variable {o : Operation} {tokenId : String} {user : UserId} {t : Instant} {claims : Claims}

/-! ## Remembered revocations -/

namespace RevokedTokens

/-- Whether a token is not remembered as revoked for longer than until `t`. -/
def AtMost (r : RevokedTokens) (tokenId : String) (t : Instant) : Prop :=
  ∀ expiresAt, r.entries.get? tokenId = some expiresAt → expiresAt ≤ t

theorem atMost_remember {r : RevokedTokens} (h : r.AtMost tokenId t) (now : Instant)
    (other : String) (expiresAt : Instant) (hother : other = tokenId → expiresAt ≤ t) :
    (r.remember now other expiresAt).AtMost tokenId t := by
  intro found hfound
  rw [remember, Table.get?_insert] at hfound
  split at hfound
  · next heq =>
    obtain rfl := Option.some.inj hfound
    exact hother heq.symm
  · unfold prune at hfound
    split at hfound
    · rw [Table.get?_filter, Option.filter_eq_some_iff] at hfound
      exact h found hfound.1
    · exact h found hfound

theorem lt_of_contains {r : RevokedTokens} (h : r.AtMost tokenId t) {now : Instant}
    (hcontains : r.contains now tokenId = true) : now < t := by
  obtain ⟨expiresAt, hentry, hlater⟩ := Option.any_eq_true .. |>.mp hcontains
  exact Instant.lt_of_lt_of_le (of_decide_eq_true hlater) (h expiresAt hentry)

end RevokedTokens

/-! ## No revocation of the token -/

namespace Fleet

/-- Whether no revocation of a token lasts longer than until `t`. -/
structure Spared (f : MemoryFleet n) (tokenId : String) (t : Instant) : Prop where
  record : f.origin.revocations.RevokedAtMost tokenId t
  memory : ∀ j : Fin n, (f.revoked j).AtMost tokenId t
  caches : ∀ j, f.Holds (.under (Key.blacklist tokenId) .revocation fun r _ => r.expiresAt ≤ t) j

/-- Whether no cutoff of a user covers a token issued at `t`. -/
structure Uncut (f : MemoryFleet n) (user : UserId) (t : Instant) : Prop where
  record : f.origin.revocations.CutOffBefore user t
  caches : ∀ j, f.Holds (.under (Key.cutoff user) .cutoff fun c _ => c.revokes t = false) j

end Fleet

/-- Whether an operation takes no token of an id out of use for longer than until `t`. -/
def Spares (tokenId : String) (t : Instant) (issuer : Issuer) (o : Operation) : Prop :=
  ∀ expiresAt, o.Retires issuer tokenId expiresAt → expiresAt ≤ t

theorem spares_of_retired (ho : o.retired = []) (issuer : Issuer) : Spares tokenId t issuer o := by
  rintro expiresAt ⟨token, htoken, -⟩
  rw [ho] at htoken
  cases htoken

/-- What an exchange says about a token that is spared. -/
def SparedFact (tokenId : String) (t wall : Instant) : Exchange → Prop
  | ⟨.isRemembered other, remembered⟩ => other = tokenId → remembered = true → wall < t
  | ⟨.cache (.fetch .revocation key), found⟩ =>
    key = Key.blacklist tokenId → ∀ r : Revocation, found = some r → r.expiresAt ≤ t
  | ⟨.revocation (.insert other expiresAt), .ok ()⟩ => other = tokenId → expiresAt ≤ t
  | ⟨.revocation (.findActive other time), .ok (some r)⟩ =>
    r.tokenId = other ∧ time < r.expiresAt ∧ (other = tokenId → r.expiresAt ≤ t)
  | _ => True

/-- What an exchange says about a user who is not cut off. -/
def UncutFact (user : UserId) (t : Instant) : Exchange → Prop
  | ⟨.cache (.fetch .cutoff key), found⟩ =>
    key = Key.cutoff user → ∀ c : Cutoff, found = some c → c.revokes t = false
  | ⟨.revocation (.findCutoff other _), .ok (some revokedBefore)⟩ =>
    other = user → revokedBefore < t
  | _ => True

theorem shortens_blacklist (tokenId : String) (t : Instant) :
    (EntryRule.under (Key.blacklist tokenId) .revocation
      fun (r : Revocation) _ => r.expiresAt ≤ t).Shortens :=
  EntryRule.shortens_under fun _ _ _ h _ => h

theorem shortens_cutoff (user : UserId) (t : Instant) :
    EntryRule.Shortens
      (.under (Key.cutoff user) .cutoff fun (c : Cutoff) _ => c.revokes t = false) :=
  EntryRule.shortens_under fun _ _ _ h _ => h

theorem spared_answer (hs : f.Spared tokenId t)
    (hmay : ∀ expiresAt, r.Revokes tokenId expiresAt → expiresAt ≤ t)
    (hfacts : ∀ e ∈ h, SparedFact tokenId t f.wall e)
    (hconduct : conduct (f.issuer i) o h r) : (answer i r f).2.Spared tokenId t := by
  -- Record, memory and caches, one after the other.
  refine ⟨?_, fun j => ?_, fun j => (hs.caches j).answer (shortens_blacklist tokenId t) ?_⟩
  · rw [answer_revocations]
    cases r with
    | revocation c =>
      refine RevocationStore.revokedAtMost_perform hs.record fun expiresAt hc => ?_
      subst hc
      exact hmay expiresAt (Or.inl rfl)
    | _ => exact hs.record
  · rw [answer_revoked]
    cases r with
    | remember other expiresAt =>
      dsimp only
      split
      · refine RevokedTokens.atMost_remember (hs.memory i) _ _ _ fun heq => ?_
        exact hmay expiresAt (Or.inr (by rw [heq]))
      · exact hs.memory j
    | _ => exact hs.memory j
  · rintro c rfl
    refine keeps_blacklist hconduct fun row ttl hid hsource => ?_
    -- What is cached has been written or read, and neither lasts longer than it may.
    rcases hsource with hinsert | ⟨other, time, hfind⟩
    · exact hfacts _ hinsert rfl
    · obtain ⟨hother, -, hle⟩ := hfacts _ hfind
      exact hle (hother.symm.trans hid)

theorem sparedFact_answer (hs : f.Spared tokenId t)
    (hmay : ∀ expiresAt, r.Revokes tokenId expiresAt → expiresAt ≤ t) :
    SparedFact tokenId t f.wall ⟨r, (answer i r f).1⟩ := by
  cases r with
  | isRemembered other =>
    rintro rfl hcontains
    exact RevokedTokens.lt_of_contains (hs.memory i) hcontains
  | revocation c =>
    cases c with
    | insert other expiresAt =>
      rintro rfl
      exact hmay expiresAt (Or.inl rfl)
    | findActive other time =>
      show SparedFact tokenId t f.wall ⟨.revocation (.findActive other time),
        .ok (f.origin.revocations.findActive other time)⟩
      cases hfound : f.origin.revocations.findActive other time with
      | none => trivial
      | some row => exact RevocationStore.of_findActive hs.record hfound
    | _ => trivial
  | cache c =>
    cases c with
    | fetch kind key =>
      cases kind with
      | revocation =>
        rintro rfl row hfound
        obtain ⟨-, hle, -⟩ := (hs.caches i).of_fetch hfound
        exact hle
      | _ => trivial
    | _ => trivial
  | _ => trivial

/-- A token stays spared as long as it is not taken out of use. -/
theorem preserved_spared (tokenId : String) (t : Instant) :
    Preserved (Spares tokenId t) (fun f : MemoryFleet n => f.Spared tokenId t)
      (fun _ => SparedFact tokenId t) where
  request hspares hs hfacts _ hconduct :=
    have hmay expiresAt hr := hspares expiresAt (Request.Revokes.retires hr hconduct)
    ⟨spared_answer hs hmay hfacts hconduct, sparedFact_answer hs hmay⟩
  event := by
    intro f e hs
    refine ⟨?_, fun j => ?_, fun j => (hs.caches j).happen e⟩
    · rw [happen_origin]
      exact hs.record
    · rw [happen_revoked]
      exact hs.memory j

theorem Fleet.Spared.forgotten (hs : f.Spared tokenId t) (hwall : t ≤ f.wall) (j : Fin n) :
    (f.revoked j).contains f.wall tokenId = false :=
  Bool.eq_false_iff.2 fun hcontains =>
    Instant.not_le.2 (RevokedTokens.lt_of_contains (hs.memory j) hcontains) hwall

theorem Fleet.Spared.unrecorded (hs : f.Spared tokenId t) (hwall : t ≤ f.wall) :
    f.origin.revocations.findActive tokenId f.wall = none := by
  cases hfound : f.origin.revocations.findActive tokenId f.wall with
  | none => rfl
  | some row =>
    obtain ⟨-, hlater, hle⟩ := RevocationStore.of_findActive hs.record hfound
    exact absurd hwall (Instant.not_le.2 (Instant.lt_of_lt_of_le hlater (hle rfl)))

/-! ## No cutoff of the user -/

theorem uncut_answer (hu : f.Uncut user t)
    (hmay : ∀ revokedBefore expiresAt,
      r = .revocation (.insertCutoff user revokedBefore expiresAt) → revokedBefore < t)
    (hfacts : ∀ e ∈ h, UncutFact user t e) (hconduct : conduct (f.issuer i) o h r) :
    (answer i r f).2.Uncut user t := by
  refine ⟨?_, fun j => (hu.caches j).answer (shortens_cutoff user t) ?_⟩
  · rw [answer_revocations]
    cases r with
    | revocation c =>
      apply RevocationStore.cutOffBefore_perform hu.record
      intro revokedBefore expiresAt hc
      exact hmay revokedBefore expiresAt (hc ▸ rfl)
    | _ => exact hu.record
  · rintro c rfl
    refine keeps_cutoff hconduct fun revokedBefore time hfind => ?_
    have hlt : revokedBefore < t := hfacts _ hfind rfl
    simpa [Cutoff.revokes, Instant.not_le] using hlt

theorem uncutFact_answer (hu : f.Uncut user t) : UncutFact user t ⟨r, (answer i r f).1⟩ := by
  cases r with
  | revocation c =>
    cases c with
    | findCutoff other time =>
      show UncutFact user t ⟨.revocation (.findCutoff other time),
        .ok (f.origin.revocations.findCutoff other time)⟩
      cases hfound : f.origin.revocations.findCutoff other time with
      | none => trivial
      | some revokedBefore =>
        rintro rfl
        exact RevocationStore.lt_of_findCutoff hu.record hfound
    | _ => trivial
  | cache c =>
    cases c with
    | fetch kind key =>
      cases kind with
      | cutoff =>
        rintro rfl cutoff hfound
        obtain ⟨-, hrevokes, -⟩ := (hu.caches i).of_fetch hfound
        exact hrevokes
      | _ => trivial
    | _ => trivial
  | _ => trivial

/-- A user stays without a cutoff as long as none is written. -/
theorem preserved_uncut (user : UserId) (t : Instant) :
    Preserved (fun _ o => o ≠ .revokeAll user) (fun f : MemoryFleet n => f.Uncut user t)
      (fun _ _ => UncutFact user t) where
  request := by
    intro f i h r o hne hu hfacts _ hconduct
    refine ⟨uncut_answer hu ?_ hfacts hconduct, uncutFact_answer hu⟩
    rintro revokedBefore expiresAt rfl
    exact absurd hconduct.2 hne
  event := by
    intro f e hu
    refine ⟨?_, fun j => (hu.caches j).happen e⟩
    rw [happen_origin]
    exact hu.record

/-! ## No reason to refuse -/

theorem Fleet.Fresh.spared (hf : f.Fresh) (tokenId : String) (t : Instant) :
    f.Spared tokenId t := by
  refine ⟨fun key row hrow => ?_, fun j expiresAt hentry => ?_, fun j => hf.holds _ j⟩
  · rw [hf.revocations] at hrow
    cases hrow
  · rw [hf.revoked] at hentry
    cases hentry

theorem Fleet.Fresh.uncut (hf : f.Fresh) (user : UserId) (t : Instant) : f.Uncut user t := by
  refine ⟨fun row hrow => ?_, fun j => hf.holds _ j⟩
  rw [hf.revocations] at hrow
  cases hrow

theorem not_refused {wall : Instant} (hfacts : ∀ e ∈ h, SparedFact tokenId t wall e)
    (htold : ∀ time, h.Told time → time = wall) (hwall : t ≤ wall) : ¬ h.Refused tokenId := by
  rintro (hremembered | ⟨r, time, hnow, hfetch, hactive⟩ | ⟨r, time, hnow, hfind⟩)
  · exact Instant.not_le.2 (hfacts _ hremembered rfl rfl) hwall
  · have hle : r.expiresAt ≤ t := hfacts _ hfetch rfl r rfl
    have hlater : time < r.expiresAt := by simpa [Revocation.active] using hactive
    rw [htold time hnow] at hlater
    exact Instant.not_le.2 hlater (Instant.le_trans hle hwall)
  · obtain ⟨-, hlater, hle⟩ := hfacts _ hfind
    rw [htold time hnow] at hlater
    exact Instant.not_le.2 hlater (Instant.le_trans (hle rfl) hwall)

theorem not_cutOff (hfacts : ∀ e ∈ h, UncutFact user t e) : ¬ h.CutOff user t := by
  rintro (⟨cutoff, hfetch, hrevokes⟩ | ⟨time, revokedBefore, -, hfind, hle⟩)
  · have hnot : cutoff.revokes t = false := hfacts _ hfetch rfl cutoff rfl
    rw [hrevokes] at hnot
    cases hnot
  · exact Instant.not_le.2 (hfacts _ hfind rfl) hle

/-- A token that is good by itself and spared is accepted. -/
theorem verify_of_spared {token : String} (hs : f.Spared claims.tokenId t) (hwall : t ≤ f.wall)
    (hu : f.Uncut claims.user claims.issuedAt)
    (hverify : (f.issuer i).config.verify .access f.wall token = .ok claims) :
    (f.execute i (.verify token)).1 = .ok claims := by
  obtain ⟨-, h, hfacts, htold, hreason⟩ :=
    (preserved_working.and ((preserved_spared claims.tokenId t).and
      (preserved_uncut claims.user claims.issuedAt))).execute ⟨trivial, hs, hu⟩
      (i := i) (o := .verify token) ⟨trivial, spares_of_retired rfl _, Operation.noConfusion⟩
  have hworking := fun e he => (hfacts e he).1
  have hspared := fun e he => (hfacts e he).2.1
  have huncut := fun e he => (hfacts e he).2.2
  have hpeek := (TokenConfig.verify_eq_ok_iff.1 hverify).1
  cases hresult : (f.execute i (.verify token)).1 with
  | ok found =>
    rw [hresult] at hreason
    obtain ⟨⟨time, -, hfound⟩, -⟩ := hreason
    rw [(TokenConfig.verify_eq_ok_iff.1 hfound).1] at hpeek
    rw [Except.ok.inj hpeek]
  | error e =>
    rw [hresult] at hreason
    rcases hreason with ⟨time, hnow, hbad⟩ | ⟨other, hother, hdenied⟩
    · rw [htold time hnow, hverify] at hbad
      cases hbad
    · obtain rfl : claims = other := Except.ok.inj (hpeek.symm.trans hother)
      rcases hdenied with hfailed | ⟨-, hrefused | hcutoff⟩
      -- Each of the reasons to refuse the token is excluded.
      · exact absurd hfailed (not_failed hworking e)
      · exact absurd hrefused (not_refused hspared htold hwall)
      · exact absurd hcutoff (not_cutOff huncut)

end Bearer
