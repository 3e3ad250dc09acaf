/-
  Why a token is rejected as revoked.

  Whatever makes an instance reject a token, be it remembered, cached or on
  record, goes back to a call of the run that asked for it: the token's own id
  was given to the blacklist, or a cutoff of its user was taken that covers its
  issue.  As ids are drawn once, a token that the fleet has handed out shares
  its id with no other one, so the id is that of the very token.

  Main statements: `spared_execute` and `uncut_execute` for one operation,
  `given_or_spared` and `cut_or_uncut` for a run, `test_of_rejected` for what a
  rejection means, and `blacklisted_justified`.
-/
import Mathlib.Data.List.Induction
import Bearer.Proofs.Fleet.Issue
import Bearer.Proofs.Fleet.Perform
import Bearer.Proofs.Revocation.Spared

namespace Bearer

open Fleet

variable {n : Nat} {f g : MemoryFleet n} {i j : Fin n} {o : Operation} {user : UserId}
variable {kind : TokenKind} {token tokenId : String} {t : Instant} {claims : Claims}
variable {α β : Type}

/-! ## What a call asks for -/

namespace History

/-- Whether a token id has been revoked, for whatever time. -/
def Revokes (h : History) (tokenId : String) : Prop :=
  ∃ e ∈ h, ∃ expiresAt, e.request.Revokes tokenId expiresAt

/-- Whether a token id has been given to the blacklist; an issuer that does not report revocations
has a list of its own instead. -/
def Blacklists (h : History) (issuer : Issuer) (tokenId : String) : Prop :=
  ∃ expiresAt, ⟨.revocation (.insert tokenId expiresAt), .ok ()⟩ ∈ h ∨
    issuer.reports = false ∧ ⟨.remember tokenId expiresAt, ()⟩ ∈ h

/-- Whether a cutoff of a user has been taken at a time. -/
def CutsOff (h : History) (user : UserId) (time : Instant) : Prop :=
  ∃ expiresAt, ⟨.revocation (.insertCutoff user time expiresAt), .ok ()⟩ ∈ h

end History

namespace Fleet

/-- A token stays spared by an operation that does not revoke its id. -/
theorem spared_execute (hs : f.Spared tokenId t) (hnot : ¬ (f.history i o).Revokes tokenId) :
    (f.execute i o).2.Spared tokenId t := by
  have hmade : ∀ e ∈ f.history i o, ∀ expiresAt, ¬ e.request.Revokes tokenId expiresAt :=
    fun e he expiresAt hr => hnot ⟨e, he, expiresAt, hr⟩
  have hrun := perform_of
    (fun h g => g.Spared tokenId t ∧ ∀ e ∈ h, SparedFact tokenId t f.wall e)
    (fun e => ∀ expiresAt, ¬ e.request.Revokes tokenId expiresAt)
    (Operation.obeys (f.issuer i) o) ?_ ⟨hs, by simp⟩ hmade
  · exact hrun.1.1
  · rintro h g r ⟨hg, hfacts⟩ hwall hissuer - hconduct hfirst
    rw [← hissuer] at hconduct
    rw [← hwall] at hfacts ⊢
    have hmay : ∀ expiresAt, r.Revokes tokenId expiresAt → expiresAt ≤ t :=
      fun expiresAt hr => absurd hr (hfirst expiresAt)
    exact ⟨spared_answer hg hmay hfacts hconduct,
      List.forall_mem_cons.2 ⟨sparedFact_answer hg hmay, hfacts⟩⟩

/-- The stores of record are kept in memory and do not fail. -/
theorem working_history {e : Exchange} (he : e ∈ f.history i o) : WorkingFact e :=
  (preserved_working.perform trivial trivial (Operation.obeys (f.issuer i) o)).2.1 e he

/-- A user stays without a cutoff that covers a time by an operation that takes none. -/
theorem uncut_execute (hu : f.Uncut user t)
    (hnot : ∀ time, (f.history i o).CutsOff user time → time < t) :
    (f.execute i o).2.Uncut user t := by
  have hmade : ∀ e ∈ f.history i o, ∀ revokedBefore expiresAt,
      e.request = .revocation (.insertCutoff user revokedBefore expiresAt) → revokedBefore < t := by
    rintro ⟨_, reply⟩ he revokedBefore expiresAt rfl
    have hworking := working_history he
    cases reply with
    | ok => exact hnot revokedBefore ⟨expiresAt, he⟩
    | error e => exact absurd hworking id
  have hrun := perform_of (fun h g => g.Uncut user t ∧ ∀ e ∈ h, UncutFact user t e)
    (fun e => ∀ revokedBefore expiresAt,
      e.request = .revocation (.insertCutoff user revokedBefore expiresAt) → revokedBefore < t)
    (Operation.obeys (f.issuer i) o) ?_ ⟨hu, by simp⟩ hmade
  · exact hrun.1.1
  · rintro h g r ⟨hg, hfacts⟩ hwall hissuer - hconduct hfirst
    rw [← hissuer] at hconduct
    exact ⟨uncut_answer hg hfirst hfacts hconduct,
      List.forall_mem_cons.2 ⟨uncutFact_answer hg, hfacts⟩⟩

/-- What is revoked by an operation is the id of a token that it takes out of use. -/
theorem retired_of_revokes (h : (f.history i o).Revokes tokenId) :
    ∃ x ∈ o.retired, ∃ claims, (f.issuer i).config.peek x = .ok claims ∧
      claims.tokenId = tokenId := by
  obtain ⟨e, he, expiresAt, hr⟩ := h
  obtain ⟨earlier, -, hconduct⟩ := conduct_of_mem he
  obtain ⟨x, hx, claims, hpeek, hid, -⟩ := hr.retires hconduct
  exact ⟨x, hx, claims, hpeek, hid⟩

/-- What an issuer remembers that reports revocations, it has put on record in the same call. -/
theorem inserts_of_remembers {expiresAt : Instant} (hreports : (f.issuer i).reports = true)
    (hmem : ⟨.remember tokenId expiresAt, ()⟩ ∈ f.history i o) :
    ⟨.revocation (.insert tokenId expiresAt), .ok ()⟩ ∈ f.history i o := by
  obtain ⟨earlier, hsub, ⟨x, hx, claims, hpeek, rfl, rfl⟩, ⟨token, rfl⟩, time, htold, hgood⟩ :=
    conduct_of_mem hmem
  obtain rfl := List.mem_singleton.1 hx
  obtain rfl := told_history (hsub _ htold)
  -- The call has ended well, and the token had not expired.
  have hreason := (preserved_working.perform (f := f) trivial trivial
    (Operation.obeys (f.issuer i) (.revoke x))).2.2.2
  change (Operation.revoke x).Reason (f.issuer i) (f.history i (.revoke x)) _ at hreason
  cases hresult : (f.perform i ((Operation.revoke x).service (f.issuer i))).1 with
  | ok =>
    rw [hresult] at hreason
    obtain ⟨found, hfound, hvoided⟩ := hreason
    obtain rfl := Except.ok.inj (hpeek.symm.trans hfound)
    rcases hvoided hreports with ⟨later, hlater, hexpired⟩ | hinsert
    · rw [told_history hlater] at hexpired
      exact absurd hexpired hgood
    · exact hinsert
  | error e =>
    rw [hresult] at hreason
    rcases hreason with hbad | ⟨c, hfailed⟩
    · rw [hpeek] at hbad
      cases hbad
    · exact absurd ⟨c, hfailed⟩ (not_failed (fun e he => working_history he) e)

/-- An id that is revoked is given to the blacklist. -/
theorem blacklists_of_revokes (h : (f.history i o).Revokes tokenId) :
    (f.history i o).Blacklists (f.issuer i) tokenId := by
  obtain ⟨⟨r, reply⟩, he, expiresAt, rfl | rfl⟩ := h
  · have hworking := working_history he
    cases reply with
    | ok => exact ⟨expiresAt, Or.inl he⟩
    | error e => exact absurd hworking id
  · refine ⟨expiresAt, ?_⟩
    by_cases hreports : (f.issuer i).reports = true
    · exact Or.inl (inserts_of_remembers hreports he)
    · exact Or.inr ⟨by simpa using hreports, he⟩

/-- A cutoff of a user is taken at the time of a call that revokes all of the user's tokens. -/
theorem revokeAll_of_cutsOff (h : (f.history i o).CutsOff user t) :
    o = .revokeAll user ∧ t = f.wall := by
  obtain ⟨expiresAt, hmem⟩ := h
  obtain ⟨earlier, hsub, htold, ho⟩ := conduct_of_mem hmem
  exact ⟨ho, told_history (hsub _ htold)⟩

end Fleet

/-! ## What a rejection means -/

/-- Whether a service does not reject anything as revoked. -/
def Lenient (i : Fin n) (s : Service α) : Prop :=
  ∀ f : MemoryFleet n, (f.perform i s).1 ≠ .error .tokenBlacklisted

namespace Lenient

theorem pure (i : Fin n) (a : α) : Lenient i (pure a : Service α) := by
  intro f h
  cases h

theorem lift (i : Fin n) {verdict : Except AuthError α}
    (h : verdict ≠ .error .tokenBlacklisted) : Lenient i (liftM verdict : Service α) := by
  intro f
  cases verdict <;> exact h

theorem throw (i : Fin n) {e : AuthError} (h : e ≠ .tokenBlacklisted) :
    Lenient i (throw e : Service α) :=
  fun _ heq => h (Except.error.inj heq)

theorem bind {s : Service α} {next : α → Service β} (hs : Lenient i s)
    (hnext : ∀ a, Lenient i (next a)) : Lenient i (s >>= next) := by
  intro f
  have hyields : Yields i (s >>= next) (fun result _ => result ≠ .error .tokenBlacklisted) f := by
    rw [yields_bind]
    unfold Yields
    have hfirst := hs f
    cases hresult : (f.perform i s).1 with
    | ok a => exact hnext a _
    | error e =>
      rw [hresult] at hfirst
      intro heq
      cases heq
      exact hfirst rfl
  exact hyields

theorem ask (i : Fin n) (r : Request) : Lenient i (Service.ask r) := by
  intro f h
  cases h

theorem session (i : Fin n) (c : SessionCall) : Lenient i (Service.session c) := by
  intro f h
  have hreply : (f.origin.sessions.perform c).1 = .error .tokenBlacklisted := h
  cases c with
  | upsert user token expiresAt createdAt =>
    by_cases htaken : f.origin.sessions.takenByOther user token = true
    · simp [SessionStore.perform, htaken] at hreply
    · simp [SessionStore.perform, htaken] at hreply
  | updateToken user expected token expiresAt =>
    by_cases htaken : f.origin.sessions.takenByOther user token = true
    · simp [SessionStore.perform, htaken] at hreply
    · simp [SessionStore.perform, htaken] at hreply
  | _ => cases hreply

theorem revocation (i : Fin n) (c : RevocationCall) : Lenient i (Service.revocation c) := by
  intro f h
  have hreply : (f.origin.revocations.perform f.wall c).1 = .error .tokenBlacklisted := h
  cases c <;> cases hreply

theorem deadline (i : Fin n) (start : Instant) (span : Duration) :
    Lenient i (liftM (Service.deadline start span) : Service Instant) := by
  apply lift
  unfold Service.deadline
  split
  · exact fun h => nomatch h
  · exact fun h => nomatch h

theorem issue (i : Fin n) (issuer : Issuer) (kind : TokenKind) (user : UserId)
    (username : String) (time : Instant) : Lenient i (issuer.issue kind user username time) :=
  (deadline i _ _).bind fun _ => (ask i .freshTokenId).bind fun _ => pure i _

theorem issuePair (i : Fin n) (issuer : Issuer) (user : UserId) (username : String) :
    Lenient i (issuer.issuePair user username) :=
  (ask i .now).bind fun time => (issue i issuer .access user username time).bind fun _ =>
    (issue i issuer .refresh user username time).bind fun _ => pure i _

theorem getByToken (i : Fin n) (token : String) : Lenient i (Sessions.getByToken token) := by
  refine (ask i .now).bind fun time => (session i _).bind fun found => ?_
  cases found with
  | none => exact throw i (by decide)
  | some s => exact pure i s

theorem add (i : Fin n) (tokenId : String) (expiresAt : Instant) :
    Lenient i (Blacklist.add tokenId expiresAt) := by
  refine (revocation i _).bind fun _ => (ask i .now).bind fun _ => (ask i .now).bind fun _ => ?_
  split
  · exact (ask i _).bind fun _ => pure i ()
  · exact pure i ()

theorem rotate (i : Fin n) (user : UserId) (old token : String) (ttl : Duration) :
    Lenient i (Sessions.rotate user old token ttl) := by
  refine (ask i .now).bind fun _ => (deadline i _ _).bind fun _ =>
    (session i _).bind fun written => ?_
  split
  · exact (ask i _).bind fun _ => pure i ()
  · exact throw i (by decide)

theorem redeem (i : Fin n) (issuer : Issuer) (claims : Claims) (token : String) :
    Lenient i (Fleet.redeem issuer claims token) := by
  refine (issuePair i _ _ _).bind fun pair => (add i _ _).bind fun _ =>
    (ask i .now).bind fun time => ?_
  split
  · exact (rotate i _ _ _ _).bind fun _ => pure i _
  · exact throw i (by decide)

end Lenient

namespace Fleet

/-- Where what follows the test for revocations rejects nothing as revoked, a token rejected as
revoked is good by itself, and is rejected by the test. -/
theorem test_of_lenient {issuer : Issuer} {rest : Claims → Service α}
    (hrest : ∀ claims, Lenient i (rest claims))
    (h : (f.perform i (do
      let claims ← issuer.verify kind token
      Auth.requireNotRevoked claims
      rest claims)).1 = .error .tokenBlacklisted) :
    ∃ claims, issuer.config.peek token = .ok claims ∧
      (f.perform i (Auth.requireNotRevoked claims)).1 = .error .tokenBlacklisted := by
  have hyields : Yields i (do
      let claims ← issuer.verify kind token
      Auth.requireNotRevoked claims
      rest claims) (fun result _ => result = .error .tokenBlacklisted) f := h
  rw [yields_bind, Issuer.verify, yields_bind, yields_now] at hyields
  dsimp only at hyields
  rw [yields_lift] at hyields
  cases hverify : issuer.config.verify kind f.wall token with
  | error e =>
    rw [hverify] at hyields
    obtain rfl := Except.error.inj hyields
    exact absurd hverify (TokenConfig.verify_ne_blacklisted _ _ _ _)
  | ok claims =>
    rw [hverify] at hyields
    refine ⟨claims, (TokenConfig.verify_eq_ok_iff.1 hverify).1, ?_⟩
    dsimp only at hyields
    rw [yields_bind] at hyields
    unfold Yields at hyields
    cases htest : (f.perform i (Auth.requireNotRevoked claims)).1 with
    | error e =>
      rw [htest] at hyields
      have hrejected : Except.error e = Except.error .tokenBlacklisted := hyields
      rw [Except.error.inj hrejected]
    | ok =>
      rw [htest] at hyields
      exact absurd hyields (hrest claims _)

/-- A token that is rejected as revoked is good by itself, and is rejected by the test for
revocations. -/
theorem test_of_rejected
    (h : (f.execute i (.verify token)).1 = .error .tokenBlacklisted ∨
      (f.execute i (.refresh token)).1 = .error .tokenBlacklisted) :
    ∃ claims, (f.issuer i).config.peek token = .ok claims ∧
      (f.perform i (Auth.requireNotRevoked claims)).1 = .error .tokenBlacklisted := by
  rcases h with h | h
  · exact test_of_lenient (fun claims => Lenient.pure i claims) h
  · rw [Fleet.execute, Operation.service, refresh_eq_redeem] at h
    refine test_of_lenient (fun claims => ?_) h
    refine (Lenient.getByToken i token).bind fun found => ?_
    dsimp only
    split
    · exact (Lenient.throw i (by decide)).bind fun _ => Lenient.redeem i _ claims token
    · exact Lenient.redeem i _ claims token

/-- A token that is spared and whose user is not cut off passes the test. -/
theorem test_of_spared (hs : f.Spared claims.tokenId t) (hwall : t ≤ f.wall)
    (hu : f.Uncut claims.user claims.issuedAt) :
    (f.perform i (Auth.requireNotRevoked claims)).1 ≠ .error .tokenBlacklisted := by
  intro hrejected
  have hobeys : Service.Obeys (conduct (f.issuer i) (.isRevoked claims.tokenId))
      (fun h result => ∀ e, result = .error e → h.Denied claims e) []
      (Auth.requireNotRevoked claims) := by
    apply Auth.obeys_requireNotRevoked
    · intro h _ _ e heq
      cases heq
    · rintro h e hdenied e' heq
      cases heq
      exact hdenied
  obtain ⟨-, hfacts, htold, hdenied⟩ :=
    (preserved_working.and ((preserved_spared claims.tokenId t).and
      (preserved_uncut claims.user claims.issuedAt))).perform ⟨trivial, hs, hu⟩
      ⟨trivial, spares_of_retired rfl _, Operation.noConfusion⟩ hobeys
  rcases hdenied _ hrejected with hfailed | ⟨-, hrefused | hcutoff⟩
  · exact absurd hfailed (not_failed (fun e he => (hfacts e he).1) _)
  · exact absurd hrefused (not_refused (fun e he => (hfacts e he).2.1) htold hwall)
  · exact absurd hcutoff (not_cutOff fun e he => (hfacts e he).2.2)

end Fleet

/-! ## Runs -/

namespace Fleet

variable {f₀ : MemoryFleet n} {moves : List (Move n)}

theorem Executes.append (h : f.Executes moves g i o) (more : List (Move n)) :
    f.Executes (moves ++ more) g i o := by
  obtain ⟨before, after, rfl, rfl⟩ := h
  exact ⟨before, after ++ more, by simp, rfl⟩

theorem executes_last (f : MemoryFleet n) (moves : List (Move n)) (i : Fin n) (o : Operation) :
    f.Executes (moves ++ [.execute i o]) (f.play moves) i o :=
  ⟨moves, [], rfl, rfl⟩

theorem Executes.issuer (h : f.Executes moves g i o) (j : Fin n) : g.issuer j = f.issuer j := by
  obtain ⟨before, -, -, rfl⟩ := h
  exact play_issuer f before j

/-- After a run, a token is spared unless one of the operations has revoked its id. -/
theorem given_or_spared (hf : f.Fresh) (moves : List (Move n)) (tokenId : String) (t : Instant) :
    (∃ g i o, f.Executes moves g i o ∧ (g.history i o).Revokes tokenId) ∨
      (f.play moves).Spared tokenId t := by
  -- From the start of the run to its last move.
  induction moves using List.reverseRecOn with
  | nil => exact Or.inr (hf.spared tokenId t)
  | append_singleton moves m ih =>
    rw [play_append]
    rcases ih with ⟨g, i, o, hexec, hrevokes⟩ | hspared
    · exact Or.inl ⟨g, i, o, hexec.append [m], hrevokes⟩
    cases m with
    | execute i o =>
      by_cases hrevokes : ((f.play moves).history i o).Revokes tokenId
      · exact Or.inl ⟨_, i, o, executes_last f moves i o, hrevokes⟩
      · exact Or.inr (spared_execute hspared hrevokes)
    | event e => exact Or.inr ((preserved_spared tokenId t).event e hspared)

/-- After a run, no cutoff of a user covers what was issued at a time unless one of the operations
has taken it. -/
theorem cut_or_uncut (hf : f.Fresh) (moves : List (Move n)) (user : UserId) (t : Instant) :
    (∃ g i o time, f.Executes moves g i o ∧ (g.history i o).CutsOff user time ∧ t ≤ time) ∨
      (f.play moves).Uncut user t := by
  induction moves using List.reverseRecOn with
  | nil => exact Or.inr (hf.uncut user t)
  | append_singleton moves m ih =>
    rw [play_append]
    rcases ih with ⟨g, i, o, time, hexec, hcut, hle⟩ | huncut
    · exact Or.inl ⟨g, i, o, time, hexec.append [m], hcut, hle⟩
    cases m with
    | execute i o =>
      by_cases hcut : ∃ time, ((f.play moves).history i o).CutsOff user time ∧ t ≤ time
      · obtain ⟨time, hcut, hle⟩ := hcut
        exact Or.inl ⟨_, i, o, time, executes_last f moves i o, hcut, hle⟩
      · refine Or.inr (uncut_execute huncut fun time htime => ?_)
        exact Instant.not_le.1 fun hle => hcut ⟨time, htime, hle⟩
    | event e => exact Or.inr ((preserved_uncut user t).event e huncut)

/-- Whether an instance rejects a token as revoked. -/
def Rejects (f : MemoryFleet n) (i : Fin n) (token : String) : Prop :=
  (f.execute i (.verify token)).1 = .error .tokenBlacklisted ∨
    (f.execute i (.refresh token)).1 = .error .tokenBlacklisted

/-- Whether an operation of a run has given the id of a token to the blacklist, as that of a token
that it was called with: a token that the run has handed out is the very one. -/
def GivenUp (f : MemoryFleet n) (moves : List (Move n)) (token tokenId : String) : Prop :=
  ∃ g i o, f.Executes moves g i o ∧ (g.history i o).Blacklists (f.issuer i) tokenId ∧
    ∃ x ∈ o.retired, ∃ claims, (f.issuer i).config.peek x = .ok claims ∧
      claims.tokenId = tokenId ∧ (f.HandedOut moves x → x = token)

/-- Whether no operation of a run that revokes or redeems is called with a token; nor with a forgery,
which states the same id but has not been handed out. -/
def Unpresented (f : MemoryFleet n) (moves : List (Move n)) (token tokenId : String) : Prop :=
  ∀ g i o, f.Executes moves g i o → ∀ x ∈ o.retired, x ≠ token ∧
    (f.HandedOut moves x ∨
      ∀ claims, (f.issuer i).config.peek x = .ok claims → claims.tokenId ≠ tokenId)

/-- What a rejection goes back to. -/
theorem givenUp_or_cutOff (hf : f.Fresh) {pair : TokenPair} (hexec : f.Executes moves g j o)
    (hout : g.HandsOut j o user pair) (hrejected : (f.play moves).Rejects i (pair.token kind)) :
    ∃ claims, (f.issuer i).config.peek (pair.token kind) = .ok claims ∧
      Instant.ofMillis? g.wall.millis = some claims.issuedAt ∧
      (f.GivenUp moves (pair.token kind) claims.tokenId ∨
        ∃ g' k, f.Executes moves g' k (.revokeAll user) ∧
          (g'.history k (.revokeAll user)).CutsOff user g'.wall ∧ claims.issuedAt ≤ g'.wall) := by
  obtain ⟨claims, hpeek, htest⟩ := test_of_rejected hrejected
  rw [play_issuer] at hpeek
  obtain ⟨username, first, -, -, hminted⟩ := hout.mint
  obtain ⟨expiresAt, htoken⟩ := hminted kind
  obtain ⟨huser, -, -, -, hissued, -⟩ := TokenConfig.stated_of_decode_mint (htoken ▸ hpeek)
  refine ⟨claims, hpeek, hissued, ?_⟩
  -- Neither spared nor uncut, or the token would have passed the test.
  rcases given_or_spared hf moves claims.tokenId f.wall with ⟨g', k, o', hexec', hrevokes⟩ | hspared
  · left
    refine ⟨g', k, o', hexec', ?_, ?_⟩
    · rw [← hexec'.issuer]
      exact blacklists_of_revokes hrevokes
    · obtain ⟨x, hx, stated, hread, hid⟩ := retired_of_revokes hrevokes
      rw [hexec'.issuer] at hread
      refine ⟨x, hx, stated, hread, hid, fun hhanded => ?_⟩
      exact hhanded.unique ⟨g, j, o, user, pair, kind, hexec, hout, rfl⟩ hread hpeek hid
  · right
    rcases cut_or_uncut hf moves user claims.issuedAt with
      ⟨g', k, o', time, hexec', hcut, hle⟩ | huncut
    · obtain ⟨rfl, rfl⟩ := revokeAll_of_cutsOff hcut
      exact ⟨g', k, hexec', hcut, hle⟩
    · exact absurd htest (test_of_spared hspared (play_clocks f moves).1 (huser ▸ huncut))

/-- A token that has been handed out and is rejected as revoked has been presented before in a call
that revokes or redeems it, which has given its id to the blacklist; or all tokens of its user have
been revoked, no earlier than the time at which it was minted, rounded down to the millisecond.  So
a token that is minted in a later millisecond than all of that, and is not presented, is never
rejected as revoked. -/
theorem blacklisted_justified (hf : f.Fresh) (hexec : f.Executes moves g j o) {pair : TokenPair}
    (hout : g.HandsOut j o user pair) (kind : TokenKind) (i : Fin n) :
    ((f.play moves).Rejects i (pair.token kind) →
      ∃ claims, (f.issuer i).config.peek (pair.token kind) = .ok claims ∧
        Instant.ofMillis? g.wall.millis = some claims.issuedAt ∧
        (f.GivenUp moves (pair.token kind) claims.tokenId ∨
          ∃ g' k, f.Executes moves g' k (.revokeAll user) ∧
            (g'.history k (.revokeAll user)).CutsOff user g'.wall ∧
            claims.issuedAt ≤ g'.wall)) ∧
    ((∀ g' k, f.Executes moves g' k (.revokeAll user) → g'.wall.millis < g.wall.millis) →
      (∀ claims, (f.issuer i).config.peek (pair.token kind) = .ok claims →
        f.Unpresented moves (pair.token kind) claims.tokenId) →
      ¬ (f.play moves).Rejects i (pair.token kind)) := by
  refine ⟨givenUp_or_cutOff hf hexec hout, fun hlater hunpresented hrejected => ?_⟩
  obtain ⟨claims, hpeek, hissued, hcause⟩ := givenUp_or_cutOff hf hexec hout hrejected
  rcases hcause with ⟨g', k, o', hexec', -, x, hx, stated, hread, hid, hsame⟩ |
    ⟨g', k, hexec', -, hle⟩
  · obtain ⟨hne, hhanded | hother⟩ := hunpresented claims hpeek g' k o' hexec' x hx
    · exact hne (hsame hhanded)
    · exact hother stated hread hid
  · have hfloor := Instant.le_millis_of_ofMillis? hissued hle
    exact absurd (hlater g' k hexec') (Int.not_lt.2 hfloor)

open Demo

/-- What the demo user gets at a login is rejected at the other instance once all tokens of the user
have been revoked there, and for no other reason. -/
theorem blacklisted_justified_demo :
    let moves := [demoLogin 0, .execute 1 (.revokeAll demoUser)]
    ∃ user pair, (demo.execute 0 (.login "demo" "demo")).1 = .ok (user, pair) ∧
      (demo.play moves).Rejects 1 pair.access ∧
      ∃ claims, (demo.issuer 1).config.peek pair.access = .ok claims ∧
        ∃ g k, demo.Executes moves g k (.revokeAll user.id) ∧
          (g.history k (.revokeAll user.id)).CutsOff user.id g.wall ∧
          claims.issuedAt ≤ g.wall := by
  intro moves
  -- The token is good by itself, but the test for revocations finds the cutoff.
  have hrejected : (demo.play moves).Rejects 1
      (demoToken .access .epoch { second := 10, nanos := 0 } 1) := by
    left
    have hpeek : ((demo.play moves).issuer 1).config.peek
        (demoToken .access .epoch { second := 10, nanos := 0 } 1) =
          .ok (demoClaims .access .epoch { second := 10, nanos := 0 } 1) := by
      rw [play_issuer]
      exact peek_demoToken .access (by decide) (by decide) (by decide) 1 1
    rw [execute_verify (TokenConfig.verify_eq_ok_iff.2 ⟨hpeek, rfl, by decide +kernel⟩)]
    decide +kernel
  have hlogin : ∃ user pair, (demo.execute 0 (.login "demo" "demo")).1 = .ok (user, pair) ∧
      pair.access = demoToken .access .epoch { second := 10, nanos := 0 } 1 := ⟨_, _, rfl, rfl⟩
  obtain ⟨user, pair, hlogin, haccess⟩ := hlogin
  rw [← haccess] at hrejected
  have hexec : demo.Executes moves demo 0 (.login "demo" "demo") :=
    ⟨[], [.execute 1 (.revokeAll demoUser)], rfl, rfl⟩
  obtain ⟨claims, hpeek, -, hcause⟩ :=
    (blacklisted_justified (fresh_start ..) hexec (.login hlogin) .access 1).1 hrejected
  refine ⟨user, pair, hlogin, hrejected, claims, hpeek, ?_⟩
  rcases hcause with ⟨g, k, o, ⟨before, after, hmoves, -⟩, -, x, hx, -⟩ | hcut
  -- No move of the run presents a token.
  · have hmem : Move.execute k o ∈ moves := hmoves ▸ by simp
    rcases List.mem_cons.1 hmem with heq | hmem
    · cases heq
      cases hx
    · cases List.mem_singleton.1 hmem
      cases hx
  · exact hcut

end Fleet

end Bearer
