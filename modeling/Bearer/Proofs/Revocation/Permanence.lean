/-
  A revoked token stays refused.

  Once a token has been revoked, the record keeps the revocation until the
  token expires, whatever happens in between, and every look-up that the caches
  do not answer reaches the record.  The expiry of a token is a whole second;
  the revocation ends with its beginning, but a token is accepted until its
  end.  So a revoked token is refused at all times but one: during the very
  second of its expiry the revocation no longer counts, and the token is good
  again if nothing else speaks against it.

  Main statement: `verify_after_revocation`.
-/
import Bearer.Proofs.Revocation.Spared

namespace Bearer

open Fleet

variable {n : Nat} {f : MemoryFleet n} {i j : Fin n} {claims : Claims} {token : String}
variable {o : Operation}

/-- Whether a token has expired or is on record as revoked until it does. -/
def Fleet.Barred (f : MemoryFleet n) (claims : Claims) : Prop :=
  f.wall < claims.expiresAt →
    f.origin.revocations.RevokedUntil claims.tokenId claims.expiresAt

/-- Whether an operation revokes a token: by itself, or because its owner logs out with it. -/
def Operation.Revokes (o : Operation) (token : String) (claims : Claims) : Prop :=
  o = .revoke token ∨
    ∃ access refresh, o = .logout claims.user access refresh ∧ (token = access ∨ token = refresh)

/-! ## The record keeps a revocation -/

/-- What an exchange says about a barred token: the record does not know it only after it has
expired. -/
def BarredFact (claims : Claims) (wall : Instant) : Exchange → Prop
  | ⟨.revocation (.findActive tokenId time), .ok none⟩ =>
    tokenId = claims.tokenId → time = wall → claims.expiresAt ≤ wall
  | _ => True

theorem barred_answer {h : History} {r : Request} (hb : f.Barred claims)
    (htold : ∀ t, h.Told t → t = f.wall) (hconduct : conduct (f.issuer i) o h r) :
    (answer i r f).2.Barred claims := by
  intro hlive
  rw [answer_wall] at hlive
  have hrow := hb hlive
  rw [answer_revocations]
  cases r with
  | revocation c =>
    refine RevocationStore.revokedUntil_perform hrow fun time hc => ?_
    subst hc
    rw [htold time hconduct.1]
    exact hlive
  | _ => exact hrow

theorem barredFact_answer {r : Request} (hb : f.Barred claims) :
    BarredFact claims f.wall ⟨r, (answer i r f).1⟩ := by
  cases r with
  | revocation c =>
    cases c with
    | findActive tokenId time =>
      show BarredFact claims f.wall ⟨.revocation (.findActive tokenId time),
        .ok (f.origin.revocations.findActive tokenId time)⟩
      cases hfound : f.origin.revocations.findActive tokenId time with
      | some row => trivial
      | none =>
        rintro rfl rfl
        rw [← Instant.not_lt]
        exact fun hlive => RevocationStore.findActive_ne_none (hb hlive) hlive hfound
    | _ => trivial
  | _ => trivial

/-- A token stays barred, whatever happens. -/
theorem preserved_barred (claims : Claims) :
    Preserved (fun _ _ => True) (fun f : MemoryFleet n => f.Barred claims)
      (fun _ => BarredFact claims) where
  request _ hb _ htold hconduct := ⟨barred_answer hb htold hconduct, barredFact_answer hb⟩
  event := by
    intro f e hb hlive
    rw [happen_origin]
    exact hb (Instant.lt_of_le_of_lt (happen_wall f e) hlive)

/-- An operation that succeeds in revoking a token bars it. -/
theorem barred_of_revokes (hreports : (f.issuer i).reports = true)
    (hpeek : (f.issuer i).config.peek token = .ok claims)
    (ho : o.Revokes token claims) {answered : o.Answer} (hok : (f.execute i o).1 = .ok answered) :
    (f.execute i o).2.Barred claims := by
  obtain ⟨-, h, -, htold, hreason, hinserted⟩ := preserved_working.establish
    (fun g => g.Barred claims) (.revocation (.insert claims.tokenId claims.expiresAt))
    (fun {f i} _ _ => by
      rw [answer_revocations]
      exact RevocationStore.revokedUntil_insert ..)
    (fun _ _ htold hconduct hb => barred_answer hb htold hconduct) (f := f) trivial
    (i := i) (o := o) trivial
  rw [hok] at hreason
  -- The operation has put the token on record, or has passed it over as expired.
  have hvoided : h.Voided claims := by
    rcases ho with rfl | ⟨access, refresh, rfl, htoken⟩
    · obtain ⟨found, hfound, hvoided⟩ := hreason
      obtain rfl := Except.ok.inj (hpeek.symm.trans hfound)
      exact hvoided hreports
    · exact hreason.1 token htoken claims hpeek rfl
  rcases hvoided with ⟨time, hnow, hexpired⟩ | hmem
  · intro hlive
    rw [execute_wall] at hlive
    rw [htold time hnow] at hexpired
    exact absurd hexpired (Instant.not_le.2 hlive)
  · exact hinserted ⟨_, hmem⟩

/-- A barred token that is accepted is in the second of its expiry. -/
theorem second_of_verify (hb : f.Barred claims)
    (hpeek : (f.issuer i).config.peek token = .ok claims) {found : Claims}
    (hok : (f.execute j (.verify token)).1 = .ok found) :
    f.wall.second = claims.expiresAt.second := by
  obtain ⟨-, h, hfacts, htold, hreason⟩ :=
    (preserved_barred claims).execute hb (i := j) (o := .verify token) trivial
  rw [hok] at hreason
  obtain ⟨⟨time, hnow, hverify⟩, ⟨later, hlater, hfind⟩, -⟩ := hreason
  obtain ⟨hfound, -, hsecond⟩ := TokenConfig.verify_eq_ok_iff.1 hverify
  obtain rfl := TokenConfig.claims_unique hpeek hfound
  -- The record has denied the revocation, so the token has expired; and it was still accepted.
  have hexpired := hfacts _ hfind rfl (htold later hlater)
  rw [htold time hnow] at hsecond
  exact Int.le_antisymm hsecond (Instant.second_le hexpired)

/-! ## Revoked tokens -/

/-- Revoking a token that can be read succeeds. -/
theorem revoke_ok (hpeek : (f.issuer i).config.peek token = .ok claims) :
    (f.execute i (.revoke token)).1 = .ok () := by
  obtain ⟨-, h, hfacts, -, hreason⟩ :=
    preserved_working.execute (f := f) trivial (i := i) (o := .revoke token) trivial
  cases hresult : (f.execute i (.revoke token)).1 with
  | ok => rfl
  | error e =>
    rw [hresult] at hreason
    rcases hreason with hbad | hfailed
    · rw [hpeek] at hbad
      cases hbad
    · exact absurd hfailed (not_failed hfacts e)

/-- In the second of its expiry, a token is accepted whether or not it has been revoked for that
long. -/
theorem verify_in_last_second (hsecond : f.wall.second = claims.expiresAt.second)
    (hkind : claims.kind = .access) (hpeek : (f.issuer j).config.peek token = .ok claims)
    (hs : f.Spared claims.tokenId claims.expiresAt) (hu : f.Uncut claims.user claims.issuedAt) :
    (f.execute j (.verify token)).1 = .ok claims := by
  -- The expiry is the beginning of its second.
  have hexpired : claims.expiresAt ≤ f.wall := by
    rw [Instant.le_iff, hsecond]
    refine Or.inr ⟨rfl, ?_⟩
    rw [TokenConfig.nanos_of_peek hpeek]
    exact Nat.zero_le _
  exact verify_of_spared hs hexpired hu
    (TokenConfig.verify_eq_ok_iff.2 ⟨hpeek, hkind, Int.le_of_eq hsecond⟩)

/-- Whatever happens after a token has been revoked, no instance accepts it outside of the second of
its expiry.  In that second, every instance that can read the token accepts it, unless it has been
revoked for longer or its user has been cut off. -/
theorem verify_after_revocation (hreports : (f.issuer i).reports = true)
    (hpeek : (f.issuer i).config.peek token = .ok claims)
    (ho : o.Revokes token claims) {answered : o.Answer} (hok : (f.execute i o).1 = .ok answered)
    (moves : List (Move n)) (j : Fin n) :
    let g := (f.execute i o).2.play moves
    (∀ found, (g.execute j (.verify token)).1 = .ok found →
      g.wall.second = claims.expiresAt.second) ∧
    (g.wall.second = claims.expiresAt.second → claims.kind = .access →
      (f.issuer j).config.peek token = .ok claims →
      f.Spared claims.tokenId claims.expiresAt → f.Uncut claims.user claims.issuedAt →
      (∀ k o', .execute k o' ∈ .execute i o :: moves →
        Spares claims.tokenId claims.expiresAt (f.issuer k) o' ∧
          o' ≠ .revokeAll claims.user) →
      (g.execute j (.verify token)).1 = .ok claims) := by
  intro g
  have hissuer : ∀ k : Fin n, g.issuer k = f.issuer k :=
    play_issuer f (.execute i o :: moves)
  refine ⟨fun found haccepted => ?_, fun hsecond hkind hread hs hu hmay => ?_⟩
  · have hbarred : g.Barred claims :=
      (preserved_barred claims).play (barred_of_revokes hreports hpeek ho hok)
        fun _ _ _ => trivial
    rw [← hissuer] at hpeek
    exact second_of_verify hbarred hpeek haccepted
  · have hspared : g.Spared claims.tokenId claims.expiresAt :=
      (preserved_spared _ _).play hs fun k o' hmem => (hmay k o' hmem).1
    have huncut : g.Uncut claims.user claims.issuedAt :=
      (preserved_uncut _ _).play hu fun k o' hmem => (hmay k o' hmem).2
    rw [← hissuer] at hread
    exact verify_in_last_second hsecond hkind hread hspared huncut

open Fleet.Demo

/-- When an access token of the demo fleet expires that has been issued at its start. -/
def demoExpiry : Instant := { second := 10, nanos := 0 }

theorem peek_demoAccess (j : Fin 2) :
    (demo.issuer j).config.peek (demoToken .access .epoch demoExpiry 1) =
      .ok (demoClaims .access .epoch demoExpiry 1) :=
  peek_demoToken .access (by decide) (by decide) (by decide) 1 j

/-- A token that has been revoked at one demo instance is refused at the other one. -/
theorem verify_after_revocation_demo :
    (demo.execute 0 (.revoke (demoToken .access .epoch demoExpiry 1))).1 = .ok () ∧
      ∀ found, ((demo.execute 0 (.revoke (demoToken .access .epoch demoExpiry 1))).2.execute 1
        (.verify (demoToken .access .epoch demoExpiry 1))).1 ≠ .ok found := by
  -- What the text of the token is does not matter.
  have hrefused : ∀ token, (∀ j : Fin 2, (demo.issuer j).config.peek token =
        .ok (demoClaims .access .epoch demoExpiry 1)) →
      ∀ found, ((demo.execute 0 (.revoke token)).2.execute 1 (.verify token)).1 ≠ .ok found := by
    intro token hread found haccepted
    obtain ⟨hsecond, -⟩ := verify_after_revocation (i := 0) rfl (hread 0) (Or.inl rfl)
      (revoke_ok (hread 0)) [] 1
    have hlast := hsecond found haccepted
    rw [play_nil, execute_wall] at hlast
    exact absurd hlast (by decide)
  exact ⟨revoke_ok (peek_demoAccess 0), hrefused _ peek_demoAccess⟩

/-- A token that has been revoked is accepted again when the second of its expiry begins. -/
theorem verify_of_fresh (hfresh : f.Fresh) (hkind : claims.kind = .access)
    (hread : ∀ j : Fin n, (f.issuer j).config.peek token = .ok claims)
    {byWall byClock : Duration}
    (hsecond : (f.happen (.pass byWall byClock)).wall.second = claims.expiresAt.second) :
    ((f.play [.execute i (.revoke token), .event (.pass byWall byClock)]).execute j
      (.verify token)).1 = .ok claims := by
  refine verify_in_last_second ?_ hkind ?_ ?_ ?_
  · have hwall : (f.execute i (.revoke token)).2.wall = f.wall := execute_wall ..
    rw [← hsecond]
    simp only [play_cons, play_nil, move, happen, hwall]
  · rw [play_issuer]
    exact hread j
  · refine (preserved_spared _ _).play (hfresh.spared _ _) fun k o hmem => ?_
    obtain ⟨rfl, rfl⟩ : k = i ∧ o = .revoke token := by simpa using hmem
    -- The only token that is revoked is the one that expires then.
    rintro expiresAt ⟨other, hother, found, hfound, -, rfl⟩
    obtain rfl := List.mem_singleton.1 hother
    obtain rfl := Except.ok.inj ((hread _).symm.trans hfound)
    exact Instant.le_refl _
  · refine (preserved_uncut _ _).play (hfresh.uncut _ _) fun k o hmem => ?_
    obtain ⟨rfl, rfl⟩ : k = i ∧ o = .revoke token := by simpa using hmem
    exact Operation.noConfusion

/-- A demo token that has been revoked is accepted ten seconds later. -/
theorem revoked_token_accepted :
    (demo.execute 0 (.revoke (demoToken .access .epoch demoExpiry 1))).1 = .ok () ∧
      ((demo.play [.execute 0 (.revoke (demoToken .access .epoch demoExpiry 1)),
        .event (.pass (.ofSeconds 10) (.ofSeconds 10))]).execute 1
          (.verify (demoToken .access .epoch demoExpiry 1))).1 =
        .ok (demoClaims .access .epoch demoExpiry 1) :=
  ⟨revoke_ok (peek_demoAccess 0),
    verify_of_fresh (fresh_start ..) rfl peek_demoAccess (by decide)⟩

end Bearer
