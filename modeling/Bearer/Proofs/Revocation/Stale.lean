/-
  Cutoffs that the caches hold too long.

  Revoking all tokens of a user empties the caller's own cache, so from then on
  the instance asks the shared cache and, if that knows nothing, the record.
  The call also removes the user's cutoff from the shared cache, but goes on if
  that refuses.  An earlier cutoff is then left there; when the shared cache
  comes back, every instance without a cutoff of its own takes that one for the
  user's and accepts the tokens that were issued after it.

  Main statement: `verify_after_revokeAll`.
-/
import Bearer.Proofs.Fleet.Issue
import Bearer.Proofs.Revocation.Checks
import Bearer.Proofs.Revocation.Cutoff
import Bearer.Proofs.Revocation.Spared

namespace Bearer

open Fleet

variable {n : Nat} {f : MemoryFleet n} {i j : Fin n} {claims : Claims} {token : String}
variable {user : UserId} {t : Instant}

namespace Fleet

/-- The fleet when the shared cache answers. -/
def reconnect (f : MemoryFleet n) : MemoryFleet n := f.happen (.outage false false)

/-- Whether the cutoff of a user that an instance finds in its cache does not cover a token issued
at `t`. -/
def Stale (f : MemoryFleet n) (j : Fin n) (user : UserId) (t : Instant) : Prop :=
  ∃ c : Cutoff, f.finds j .cutoff (Key.cutoff user) = some c ∧ c.revokes t = false

/-- Whether nothing is left of a user's cutoff in the cache of an instance, nor in the shared cache
if the instance uses it and it answers. -/
structure Swept (f : MemoryFleet n) (i : Fin n) (user : UserId) : Prop where
  near : (f.cache i).near.lookup f.clock (Key.cutoff user) = none
  shared : (f.cache i).hasShared = true → ¬ f.shared.Unreachable →
    ∀ e, f.shared.entries.get? (Key.cutoff user) = some e → e.live f.clock = false

/-! ## What the call leaves in the caches -/

theorem swept_answer (f : MemoryFleet n) (i : Fin n) (user : UserId) :
    (answer i (.cache (.invalidate (Key.userPattern user))) f).2.Swept i user := by
  obtain ⟨hnear, hshared⟩ :=
    (f.cache i).perform_invalidate (Key.userPattern user) f.clock f.shared
  refine ⟨?_, fun hhas hreach e he => ?_⟩
  · rw [answer_cache, answer_clock]
    dsimp only
    rw [if_pos rfl, hnear, LocalCache.lookup_clear]
  · rw [answer_hasShared] at hhas
    rw [answer_unreachable] at hreach
    rw [answer_shared] at he
    rw [answer_clock]
    exact hshared hhas hreach _ e (Key.isMatch_userPattern_cutoff user) he

/-- Revoking all tokens of a user ends with sweeping what is cached of the user. -/
theorem swept_of_revokeAll (hok : (f.execute i (.revokeAll user)).1 = .ok ()) :
    (f.execute i (.revokeAll user)).2.Swept i user := by
  -- The latest request of the call is the one that sweeps.
  have hobeys := Operation.obeys (f.issuer i) (.revokeAll user)
  have hfirst : ∀ reply before, ([] : History) =
      ⟨.cache (.invalidate (Key.userPattern user)), reply⟩ :: before → f.Swept i user := by
    intro reply before heq
    cases heq
  obtain ⟨hlatest, hreason⟩ := hobeys.run (answer i) (fun h g => ∀ reply before,
    h = ⟨.cache (.invalidate (Key.userPattern user)), reply⟩ :: before → g.Swept i user)
    (fun h g r _ _ reply before heq => by
      obtain ⟨heq, -⟩ := List.cons.inj heq
      obtain rfl : r = .cache (.invalidate (Key.userPattern user)) := congrArg Exchange.request heq
      exact swept_answer g i user) hfirst
  have hanswer : ((Operation.revokeAll user).service (f.issuer i)).run.run (answer i) f =
      f.execute i (.revokeAll user) := rfl
  rw [hanswer] at hlatest hreason
  rw [hok] at hreason
  obtain ⟨-, -, -, -, -, -, reply, before, heq⟩ := hreason
  exact hlatest reply before heq

theorem execute_hasShared (f : MemoryFleet n) (i j : Fin n) (o : Operation) :
    ((f.execute i o).2.cache j).hasShared = (f.cache j).hasShared :=
  execute_keeps (P := fun g => (g.cache j).hasShared = (f.cache j).hasShared)
    (fun g r hg => (answer_hasShared g i j r).trans hg) rfl o

theorem execute_unreachable (f : MemoryFleet n) (i : Fin n) (o : Operation) :
    (f.execute i o).2.shared.Unreachable ↔ f.shared.Unreachable :=
  execute_keeps (P := fun g => g.shared.Unreachable ↔ f.shared.Unreachable)
    (fun g r hg => (answer_unreachable g i r).trans hg) Iff.rfl o

/-! ## What an instance finds afterwards -/

/-- An instance without a cutoff of its own finds the one in the shared cache when that answers. -/
theorem stale_reconnect_iff
    (hnear : (f.cache j).near.lookup f.clock (Key.cutoff user) = none) :
    f.reconnect.Stale j user t ↔ (f.cache j).hasShared = true ∧
      ∃ text deadline c, f.shared.lookup f.clock (Key.cutoff user) = some ⟨.text text, deadline⟩ ∧
        Envelope.decode .cutoff text = .ok c ∧ Cutoff.revokes c t = false := by
  -- The look-up goes past the local cache to the shared one, which answers.
  have hseen : ∀ text, (f.reconnect.cache j).seen f.reconnect.clock f.reconnect.shared
      (Key.cutoff user) = some text ↔ (f.cache j).hasShared = true ∧
        ∃ deadline, f.shared.lookup f.clock (Key.cutoff user) = some ⟨.text text, deadline⟩ := by
    intro text
    have hreach : ¬ f.reconnect.shared.Unreachable := by
      simp [SharedMemory.Unreachable, reconnect, happen]
    exact TieredCache.seen_eq_some_iff hnear hreach
  constructor
  · rintro ⟨c, hfinds, hmisses⟩
    obtain ⟨text, htext, hdecode⟩ := Option.bind_eq_some_iff.1 hfinds
    obtain ⟨hhas, deadline, hlookup⟩ := (hseen text).1 htext
    refine ⟨hhas, text, deadline, c, hlookup, ?_, hmisses⟩
    cases hcase : Envelope.decode .cutoff text with
    | error e =>
      rw [hcase] at hdecode
      cases hdecode
    | ok found =>
      rw [hcase] at hdecode
      exact congrArg _ (Option.some.inj hdecode)
  · rintro ⟨hhas, text, deadline, c, hlookup, hdecode, hmisses⟩
    refine ⟨c, Option.bind_eq_some_iff.2 ⟨text, (hseen text).2 ⟨hhas, deadline, hlookup⟩, ?_⟩,
      hmisses⟩
    rw [hdecode]
    rfl

/-- What has been swept is not stale. -/
theorem Swept.reached (hs : f.Swept i user)
    (hnear : (f.cache j).near.lookup f.clock (Key.cutoff user) = none)
    (hstale : f.reconnect.Stale j user t) :
    (f.cache i).hasShared = false ∨ f.shared.Unreachable := by
  obtain ⟨-, text, deadline, c, hlookup, -⟩ := (stale_reconnect_iff hnear).1 hstale
  obtain ⟨hentry, hlive⟩ := Option.filter_eq_some_iff.1 hlookup
  by_cases hreach : f.shared.Unreachable
  · exact Or.inr hreach
  · refine Or.inl (Bool.eq_false_iff.2 fun hhas => ?_)
    rw [hs.shared hhas hreach _ hentry] at hlive
    cases hlive

/-- An instance that has no cutoff of its own, and would not find one that is stale, never will. -/
theorem settled_of_not_stale
    (hnear : (f.cache j).near.lookup f.clock (Key.cutoff user) = none)
    (hnot : ¬ f.reconnect.Stale j user t) : f.SettledBy f.clock user t j := by
  rw [stale_reconnect_iff hnear] at hnot
  refine ⟨fun hhas key e he text htext hkey c hdecode => ?_, fun key e he hkey c hdecode => ?_⟩
  · subst hkey
    obtain ⟨value, deadline⟩ := e
    subst htext
    -- A live entry would be found, so it covers the token; any other one has ended.
    by_cases hlive : SharedEntry.live f.clock ⟨.text text, deadline⟩ = true
    · have hlookup : f.shared.lookup f.clock (Key.cutoff user) = some ⟨.text text, deadline⟩ :=
        Option.filter_eq_some_iff.2 ⟨he, hlive⟩
      exact Or.inl (Bool.ne_false_iff.1 fun hmisses =>
        hnot ⟨hhas, text, deadline, c, hlookup, hdecode, hmisses⟩)
    · refine Or.inr ?_
      cases deadline with
      | none => exact absurd rfl hlive
      | some d =>
        exact ⟨d, rfl, by simpa [SharedEntry.live, Moment.lt_def, Moment.le_def] using hlive⟩
  · subst hkey
    refine Or.inr ⟨e.deadline, rfl, ?_⟩
    -- The local cache finds nothing, so what it holds has ended.
    have hdead : LocalCache.live f.clock e = false := by
      rw [LocalCache.lookup, he, Option.map_eq_none_iff, Option.filter_eq_none_iff] at hnear
      exact Bool.eq_false_iff.2 (hnear e rfl)
    simpa [LocalCache.live, Moment.lt_def, Moment.le_def] using hdead

/-! ## What a stale cutoff leads to -/

/-- A token that is spared is not revoked as any instance sees it. -/
theorem Spared.lists_eq_false (hs : f.Spared claims.tokenId t) (hwall : t ≤ f.wall) (j : Fin n) :
    f.lists j claims.tokenId = false := by
  have hcached : (f.finds j .revocation (Key.blacklist claims.tokenId)).any
      (fun r => r.active f.wall) = false := by
    cases hfound : f.finds j .revocation (Key.blacklist claims.tokenId) with
    | none => rfl
    | some r =>
      rw [← answer_fetch] at hfound
      obtain ⟨-, hle, -⟩ := (hs.caches j).of_fetch hfound
      -- A cached revocation has ended.
      exact decide_eq_false (Instant.not_lt.2 (Instant.le_trans hle hwall))
  rw [lists, hs.forgotten hwall, hcached, hs.unrecorded hwall]
  rfl

/-- A token that is good by itself and spared is accepted where the cutoff found is stale. -/
theorem accepted_of_stale (hs : f.Spared claims.tokenId t) (hwall : t ≤ f.wall)
    (hstale : f.Stale j claims.user claims.issuedAt)
    (hverify : (f.issuer j).config.verify .access f.wall token = .ok claims) :
    (f.execute j (.verify token)).1 = .ok claims := by
  obtain ⟨c, hfinds, hmisses⟩ := hstale
  have hcut : f.cutsOff j claims.user claims.issuedAt = false := by
    rw [cutsOff, cutoff?, hfinds, Option.some_or, Option.any_some, hmisses]
  have hchecked : (f.perform j (Auth.requireNotRevoked claims)).1 = .ok () := by
    rw [perform_requireNotRevoked, hs.lists_eq_false hwall, hcut]
    rfl
  rw [execute_verify hverify, perform_bind]
  cases hperform : f.perform j (Auth.requireNotRevoked claims) with
  | mk result g =>
    rw [hperform] at hchecked
    obtain rfl : result = .ok () := hchecked
    rfl

end Fleet

/-! ## Right after the call -/

/-- Once all tokens of a user have been revoked at an instance, an access token minted before is
refused from then on, there and wherever no cutoff of the user is cached locally, unless an
earlier cutoff is left in the shared cache or access tokens live as long as the cutoff.  An earlier
cutoff is only left by a caller whom the shared cache refused or who does not use it; but then the
token is accepted as soon as the shared cache answers, if nothing else speaks against it. -/
theorem verify_after_revokeAll {config : TokenConfig}
    (hok : (f.execute i (.revokeAll user)).1 = .ok ())
    (hminted : f.Minted config .access user token)
    (hnear : j = i ∨ ((f.execute i (.revokeAll user)).2.cache j).near.lookup
      (f.execute i (.revokeAll user)).2.clock (Key.cutoff user) = none) :
    let f' := (f.execute i (.revokeAll user)).2
    let longest := (f.issuer i).config.longestLifetime
    (∀ moves found, ((f'.play moves).execute j (.verify token)).1 = .ok found →
      f'.reconnect.Stale j user found.issuedAt ∨
        longest < config.accessLifetime + .ofSeconds 1 ∧
          ∃ last, f.wall.deadline? longest = some last ∧ last ≤ (f'.play moves).wall) ∧
    (∀ claims, f'.reconnect.Stale j user claims.issuedAt →
      ((f.cache i).hasShared = false ∨ f.shared.Unreachable) ∧
        ((f.issuer j).config.verify .access f.wall token = .ok claims →
          f.Spared claims.tokenId f.wall →
            (f'.reconnect.execute j (.verify token)).1 = .ok claims)) := by
  intro f' longest
  have hswept : f'.Swept i user := swept_of_revokeAll hok
  have hunseen : (f'.cache j).near.lookup f'.clock (Key.cutoff user) = none := by
    rcases hnear with rfl | hnear
    · exact hswept.near
    · exact hnear
  refine ⟨fun moves found haccepted => ?_, fun claims hstale => ⟨?_, fun hverify hspared => ?_⟩⟩
  -- Accepted although no stale cutoff can be found: then the cutoff of record has elapsed.
  · obtain ⟨last, hlast, hcut⟩ := cutOff_of_revokeAll hok
    obtain ⟨hpeek, -, hsecond⟩ := TokenConfig.verify_eq_ok_iff.1 (verify_of_accepted haccepted)
    obtain ⟨rfl, hissued, time, expiresAt, hplain, htime, hdeadline, hexpires⟩ :=
      hminted.of_peek hpeek
    by_cases hstale : f'.reconnect.Stale j found.user found.issuedAt
    · exact Or.inl hstale
    · have hsettled := settled_of_not_stale hunseen hstale
      obtain ⟨hcut', hsettled'⟩ : (f'.play moves).CutOff found.user f.wall last ∧
          (f'.play moves).SettledBy f'.clock found.user found.issuedAt j :=
        (preserved_cutOff hissued last _ j).play ⟨hcut, hsettled⟩ fun _ _ _ => trivial
      have helapsed : last ≤ (f'.play moves).wall :=
        elapsed_of_verify hissued hcut' hsettled' (play_clocks f' moves).2 haccepted
      refine Or.inr ⟨?_, last, hlast, helapsed⟩
      -- Otherwise the cutoff would elapse in a later second than the token expires in.
      rcases Nat.lt_or_ge longest.nanos (config.accessLifetime + .ofSeconds 1).nanos with
        hshort | hlonger
      · exact hshort
      · have hlater := Instant.second_lt_deadline hplain htime hdeadline hlast hlonger
        have hreached := Instant.second_le helapsed
        omega
  -- A stale cutoff can only be found where the call has not swept.
  · have hreached := hswept.reached hunseen hstale
    rw [execute_hasShared, execute_unreachable] at hreached
    exact hreached
  -- Where one is found, the token is accepted as soon as the shared cache answers.
  · have hspared' : f'.reconnect.Spared claims.tokenId f.wall :=
      (preserved_spared _ _).event _
        ((preserved_spared _ _).execute hspared (spares_of_retired rfl _)).1
    obtain ⟨rfl, -⟩ := hminted.of_peek (TokenConfig.verify_eq_ok_iff.1 hverify).1
    have hwall : f'.reconnect.wall = f.wall := execute_wall ..
    refine accepted_of_stale hspared' (hwall ▸ Instant.le_refl _) hstale ?_
    rw [hwall, reconnect, happen_issuer, execute_issuer]
    exact hverify

open Fleet.Demo

/-- What the demo user gets at a login is never good again at the instance that revokes it. -/
theorem verify_after_revokeAll_demo :
    let f := demo.play [demoLogin 0]
    ∃ user pair, (demo.execute 0 (.login "demo" "demo")).1 = .ok (user, pair) ∧
      (f.execute 0 (.revokeAll demoUser)).1 = .ok () ∧
      ∀ moves found, (((f.execute 0 (.revokeAll demoUser)).2.play moves).execute 0
        (.verify pair.access)).1 ≠ .ok found := by
  have hlogin : ∃ user pair, (demo.execute 0 (.login "demo" "demo")).1 = .ok (user, pair) ∧
      user.id = demoUser := ⟨_, _, rfl, rfl⟩
  have hok : ((demo.play [demoLogin 0]).execute 0
      (.revokeAll demoUser)).1 = .ok () := rfl
  have hshared : ((demo.play [demoLogin 0]).cache 0).hasShared =
      true ∧ ¬ (demo.play [demoLogin 0]).shared.Unreachable := by
    decide +kernel
  intro f
  obtain ⟨user, pair, hlogin, huser⟩ := hlogin
  obtain ⟨hminted, -⟩ := minted_of_login (by decide) hlogin
  rw [demo, issuer_start, ← demo, huser] at hminted
  obtain ⟨haccepted, hstale⟩ := verify_after_revokeAll (j := 0) hok hminted (Or.inl rfl)
  refine ⟨user, pair, hlogin, hok, fun moves found hfound => ?_⟩
  rcases haccepted moves found hfound with hfinds | ⟨hshort, -⟩
  · rcases (hstale found hfinds).1 with hunused | hunreachable
    · rw [hshared.1] at hunused
      cases hunused
    · exact hshared.2 hunreachable
  · rw [play_issuer, demo, issuer_start] at hshort
    exact absurd hshort (by decide)

/-! ## An outage during the call -/

/-- The demo fleet a second after all tokens of its user have been revoked. -/
def demoRevoked : MemoryFleet 2 :=
  demo.play [.execute 0 (.revokeAll demoUser), .event (.pass (.ofSeconds 1) (.ofSeconds 1))]

/-- The same fleet when the user is back. -/
def demoReturn : MemoryFleet 2 := demoRevoked.play [demoLogin 0]

/-- What the access token states that the demo user has then. -/
def demoReturnClaims : Claims :=
  demoClaims .access { second := 1, nanos := 0 } { second := 11, nanos := 0 } 1

/-- The demo fleet when the token has been verified and then the shared cache has gone offline. -/
def demoOutage : MemoryFleet 2 :=
  (demoReturn.perform 0 do
    Auth.requireNotRevoked demoReturnClaims
    return demoReturnClaims).2.happen (.outage true false)

theorem play_demoReturn
    (hread : ∀ j : Fin 2, (demo.issuer j).config.peek token = .ok demoReturnClaims) :
    demoReturn.play [.execute 0 (.verify token), .event (.outage true false)] = demoOutage := by
  have hverify : (demoReturn.issuer 0).config.verify .access demoReturn.wall
      token = .ok demoReturnClaims := by
    refine TokenConfig.verify_eq_ok_iff.2 ⟨?_, rfl, by decide +kernel⟩
    rw [demoReturn, play_issuer, demoRevoked, play_issuer]
    exact hread 0
  rw [play_cons, play_cons, play_nil, move, execute_verify hverify]
  rfl

/-- The token is accepted once the shared cache is back, though it has been revoked meanwhile. -/
theorem accepted_after_outage
    (hread : ∀ j : Fin 2, (demo.issuer j).config.peek token = .ok demoReturnClaims) :
    let g := demoReturn.play [.execute 0 (.verify token), .event (.outage true false)]
    (g.execute 0 (.revokeAll demoUser)).1 = .ok () ∧
      ((g.execute 0 (.revokeAll demoUser)).2.reconnect.execute 0 (.verify token)).1 =
        .ok demoReturnClaims := by
  intro g
  have hg : g = demoOutage := play_demoReturn hread
  -- No move up to the last one takes the token out of use.
  have hfresh : demo.Spared demoReturnClaims.tokenId .epoch := (fresh_start ..).spared _ _
  have hrevoked : demoRevoked.Spared demoReturnClaims.tokenId .epoch := by
    refine (preserved_spared _ _).play hfresh fun k o hmem => spares_of_retired ?_ _
    obtain ⟨-, rfl⟩ : k = 0 ∧ o = .revokeAll demoUser := by simpa using hmem
    rfl
  have hreturn : demoReturn.Spared demoReturnClaims.tokenId .epoch := by
    refine (preserved_spared _ _).play hrevoked fun k o hmem => spares_of_retired ?_ _
    obtain ⟨-, rfl⟩ : k = 0 ∧ o = .login "demo" "demo" := by
      simpa [demoLogin] using hmem
    rfl
  have hoffline : g.Spared demoReturnClaims.tokenId .epoch := by
    refine (preserved_spared _ _).play hreturn fun k o hmem => spares_of_retired ?_ _
    obtain ⟨-, rfl⟩ : k = 0 ∧ o = .verify token := by simpa using hmem
    rfl
  have hspared := (preserved_spared _ _).event (.outage false false) ((preserved_spared _ _).execute
    hoffline (i := 0) (o := .revokeAll demoUser) (spares_of_retired rfl _)).1
  have hissuer : (g.execute 0 (.revokeAll demoUser)).2.reconnect.issuer 0 =
      demo.issuer 0 := by
    rw [reconnect, happen_issuer, execute_issuer, play_issuer, demoReturn, play_issuer, demoRevoked,
      play_issuer]
  -- The earlier cutoff is still in the shared cache.
  have hfinds : (demoOutage.execute 0 (.revokeAll demoUser)).2.reconnect.finds 0 .cutoff
      (Key.cutoff demoUser) = some ⟨demoUser, .epoch⟩ := by
    decide +kernel
  refine ⟨by rw [hg]; decide +kernel, accepted_of_stale hspared ?_ ⟨_, hg ▸ hfinds, by decide⟩ ?_⟩
  · show Instant.epoch ≤ (g.execute 0 (.revokeAll demoUser)).2.reconnect.wall
    rw [hg]
    decide +kernel
  · refine TokenConfig.verify_eq_ok_iff.2 ⟨?_, rfl, ?_⟩
    · rw [hissuer]
      exact hread 0
    · rw [hg]
      decide +kernel

/-- A demo token that has been minted after one cutoff survives the next one. -/
theorem token_accepted_after_revokeAll :
    let token := demoToken .access demoReturnClaims.issuedAt demoReturnClaims.expiresAt 1
    let f := demoReturn.play [.execute 0 (.verify token), .event (.outage true false)]
    (∃ user pair, (demoRevoked.execute 0 (.login "demo" "demo")).1 = .ok (user, pair) ∧
        user.id = demoUser ∧ pair.access = token) ∧
      (f.execute 0 (.revokeAll demoUser)).1 = .ok () ∧
      ((f.execute 0 (.revokeAll demoUser)).2.reconnect.execute 0 (.verify token)).1 =
        .ok demoReturnClaims :=
  ⟨⟨_, _, rfl, rfl, rfl⟩,
    accepted_after_outage (peek_demoToken .access (by decide) (by decide) (by decide) 1)⟩

end Bearer
