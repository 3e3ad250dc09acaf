/-
  How a refresh ends that nothing comes between.

  A refresh first looks: at the token itself, at its revocations and at the
  session that holds it.  Whatever ends it there, nothing has been written.  A
  token that it finds in a session was minted for the session's user, so the
  session is never found to be another user's.  Once everything speaks for the
  token, nothing can go wrong any more, if a pair can be issued at all: the new
  token is nobody's yet, so no session stands in its way, and the session still
  holds the old one.

  Main statements: `prepare_cases`, `yields_commit` and `refresh_exact`.
-/
import Bearer.Proofs.Revocation.Checks
import Bearer.Proofs.Session.Winner
import Bearer.Proofs.Token.Pair

namespace Bearer

open Fleet

variable {n : Nat} {f g : MemoryFleet n} {i : Fin n} {token : String} {claims : Claims}
variable {pair : TokenPair} {tokenId : String} {user : UserId} {row : Session}

namespace Fleet

/-! ## What is on record -/

/-- Whether two fleets have the same on record, however often it has been looked up. -/
structure SameRecord (f g : MemoryFleet n) : Prop where
  sessions : g.origin.sessions.rows = f.origin.sessions.rows
  created : g.origin.sessions.created = f.origin.sessions.created
  revocations : g.origin.revocations.rows = f.origin.revocations.rows
  cutoffs : g.origin.revocations.cutoffs = f.origin.revocations.cutoffs
  users : g.origin.users = f.origin.users

/-- Whether a fleet has on record what another one had, but for the session of a user, which holds
a new token until its expiry, and for the old token, which is revoked. -/
structure Rotated (f g : MemoryFleet n) (claims : Claims) (pair : TokenPair) : Prop where
  session : ∃ row, f.origin.sessions.rows.get? claims.user = some row ∧
    g.origin.sessions.rows.get? claims.user =
      some { row with refreshToken := pair.refresh, expiresAt := pair.refreshExpiresAt }
  sessions : ∀ other, other ≠ claims.user →
    g.origin.sessions.rows.get? other = f.origin.sessions.rows.get? other
  created : g.origin.sessions.created = f.origin.sessions.created
  revocation : g.origin.revocations.RevokedUntil claims.tokenId claims.expiresAt
  revocations : ∀ tokenId, tokenId ≠ claims.tokenId →
    g.origin.revocations.rows.get? tokenId = f.origin.revocations.rows.get? tokenId
  cutoffs : g.origin.revocations.cutoffs = f.origin.revocations.cutoffs
  users : g.origin.users = f.origin.users

theorem SameRecord.refl (f : MemoryFleet n) : f.SameRecord f := ⟨rfl, rfl, rfl, rfl, rfl⟩

theorem SameRecord.trans {g' : MemoryFleet n} (h : f.SameRecord g) (h' : g.SameRecord g') :
    f.SameRecord g' where
  sessions := h'.sessions.trans h.sessions
  created := h'.created.trans h.created
  revocations := h'.revocations.trans h.revocations
  cutoffs := h'.cutoffs.trans h.cutoffs
  users := h'.users.trans h.users

/-- A request that only looks leaves the record as it is. -/
theorem SameRecord.answer (h : f.SameRecord g) (i : Fin n) {r : Request} (hr : r.Peeks) :
    f.SameRecord (answer i r g).2 := by
  have hstep : g.SameRecord (Fleet.answer i r g).2 := by
    cases r with
    | session c =>
      cases c with
      | findByToken wanted time => exact ⟨rfl, rfl, rfl, rfl, rfl⟩
      | _ => exact absurd hr id
    | revocation c =>
      cases c with
      | findActive tokenId time => exact ⟨rfl, rfl, rfl, rfl, rfl⟩
      | findCutoff user time => exact ⟨rfl, rfl, rfl, rfl, rfl⟩
      | _ => exact absurd hr id
    | user c => exact absurd hr id
    | _ => exact ⟨rfl, rfl, rfl, rfl, rfl⟩
  exact h.trans hstep

theorem Rotated.of_sameRecord {g' : MemoryFleet n} (h : f.SameRecord g)
    (hrotated : g.Rotated g' claims pair) : f.Rotated g' claims pair := by
  obtain ⟨hsession, hsessions, hcreated, hrevocation, hrevocations, hcutoffs, husers⟩ := hrotated
  rw [h.sessions] at hsession hsessions
  rw [h.revocations] at hrevocations
  exact ⟨hsession, hsessions, hcreated.trans h.created, hrevocation, hrevocations,
    hcutoffs.trans h.cutoffs, husers.trans h.users⟩

/-! ## Looking -/

/-- Whether a fleet may have come about from another one by requests that only look. -/
structure Looked (f g : MemoryFleet n) : Prop where
  record : f.SameRecord g
  wall : g.wall = f.wall
  issuer : ∀ j : Fin n, g.issuer j = f.issuer j
  onward : f.Onward g

/-- What only looks leaves the record as it is. -/
theorem looked_of_looking {α : Type} {s : Service α} (hs : Service.Looking [] s)
    (f : MemoryFleet n) (i : Fin n) : f.Looked (f.perform i s).2 where
  record :=
    ((hs [] (by simp)).run (answer i) (fun _ g => f.SameRecord g)
      (fun _ _ _ hg hr => hg.answer i hr.1) (.refl f)).1
  wall := perform_wall f i s
  issuer j :=
    perform_keeps (P := fun g => g.issuer j = f.issuer j)
      (fun g r hg => (answer_issuer g i j r).trans hg) rfl s
  onward := perform_onward f i s

namespace Looked

variable (h : f.Looked g)

include h

theorem coherent (hf : f.origin.sessions.Coherent) : g.origin.sessions.Coherent :=
  hf.of_rows fun _ _ hrow => h.record.sessions ▸ hrow

theorem rightful (hf : f.Rightful) : g.Rightful := by
  intro user row hrow
  rw [h.record.sessions] at hrow
  obtain ⟨config, username, time, expiresAt, tokenId, hid, htoken⟩ := hf user row hrow
  exact ⟨config, username, time, expiresAt, tokenId, hid.mono h.onward, htoken⟩

theorem timely (hf : f.Timely i) : g.Timely i := hf.congr h.wall (h.issuer i)

theorem bears_iff : g.Bears user token ↔ f.Bears user token := by
  unfold Bears SessionStore.findByUser
  rw [h.record.sessions, h.wall]

end Looked

/-! ## What a refresh looks at -/

/-- Whether everything that a refresh looks at speaks for a token: it is good by itself, both
checks at the instance answer that it is not revoked, and the session of its user holds it. -/
structure Admits (f : MemoryFleet n) (i : Fin n) (token : String) (claims : Claims) : Prop where
  good : (f.perform i ((f.issuer i).verify .refresh token)).1 = .ok claims
  unrevoked : (f.execute i (.isRevoked claims.tokenId)).1 = .ok false
  uncut : (f.perform i (Blacklist.isUserRevoked claims.user claims.issuedAt)).1 = .ok false
  borne : f.Bears claims.user token

/-- Whether something that a refresh looks at speaks against a token, and the error that is due. -/
inductive Refuses (f : MemoryFleet n) (i : Fin n) (token : String) : AuthError → Prop
  /-- The token is not good by itself. -/
  | bad {e : AuthError} (verdict : (f.perform i ((f.issuer i).verify .refresh token)).1 = .error e) :
      Refuses f i token e
  /-- It is revoked, by itself or with all tokens of its user. -/
  | revoked {claims : Claims}
      (good : (f.perform i ((f.issuer i).verify .refresh token)).1 = .ok claims)
      (found : (f.execute i (.isRevoked claims.tokenId)).1 = .ok true ∨
        (f.perform i (Blacklist.isUserRevoked claims.user claims.issuedAt)).1 = .ok true) :
      Refuses f i token .tokenBlacklisted
  /-- The session of its user does not hold it, or has ended. -/
  | unheld {claims : Claims}
      (good : (f.perform i ((f.issuer i).verify .refresh token)).1 = .ok claims)
      (missing : ¬ f.Bears claims.user token) : Refuses f i token .sessionNotFound

theorem Admits.not_refuses (h : f.Admits i token claims) {e : AuthError} :
    ¬ f.Refuses i token e := by
  intro hrefuses
  cases hrefuses with
  | bad verdict =>
    rw [h.good] at verdict
    cases verdict
  | revoked good found =>
    obtain rfl := Except.ok.inj (h.good.symm.trans good)
    rw [h.unrevoked, h.uncut] at found
    rcases found with hfound | hfound <;> cases hfound
  | unheld good missing =>
    obtain rfl := Except.ok.inj (h.good.symm.trans good)
    exact missing h.borne

/-- The session found by a token is the one of the user whom the token names. -/
theorem findByToken_of_rightful (hcoherent : f.origin.sessions.Coherent) (hf : f.Rightful)
    {config : TokenConfig} (hpeek : config.peek token = .ok claims) :
    (∃ row, f.origin.sessions.findByToken token f.wall = some row ∧ row.user = claims.user ∧
      f.Bears claims.user token) ∨
    f.origin.sessions.findByToken token f.wall = none ∧ ¬ f.Bears claims.user token := by
  cases hfound : f.origin.sessions.findByToken token f.wall with
  | some row =>
    obtain ⟨hrow, htoken⟩ := hcoherent.findByToken_eq_some_iff.1 hfound
    rw [← htoken] at hpeek
    have huser : claims.user = row.user :=
      hf.user_eq (SessionStore.findByUser_eq_some_iff.1 hrow).1 hpeek
    exact Or.inl ⟨row, rfl, huser.symm, row, huser ▸ hrow, htoken⟩
  | none =>
    refine Or.inr ⟨rfl, fun ⟨row, hrow, htoken⟩ => ?_⟩
    have huser := hcoherent.keyed _ row (SessionStore.findByUser_eq_some_iff.1 hrow).1
    rw [← huser] at hrow
    rw [hcoherent.findByToken_eq_some_iff.2 ⟨hrow, htoken⟩] at hfound
    cases hfound

/-! ## Up to the new pair -/

/-- Wherever the settings are in order, a pair can be issued until the end of the calendar is too
near for a refresh token. -/
theorem timely_of_validate (hvalid : (f.issuer i).config.validate = .ok ())
    (hfits : (f.wall.deadline? (f.issuer i).config.refreshLifetime).isSome) : f.Timely i where
  deadlines := TokenConfig.deadlines_of_validate hvalid hfits
  lifetime := by
    have hlonger := (TokenConfig.lifetimes_of_validate hvalid).2
    rw [Duration.lt_def] at hlonger
    simp only [Duration.isZero, beq_eq_false_iff_ne]
    omega

/-- Where a pair can be issued, its refresh token expires when it should, and is in no session
yet. -/
structure Usable (f : MemoryFleet n) (config : TokenConfig) (pair : TokenPair) : Prop where
  deadline : f.wall.deadline? config.refreshLifetime = some pair.refreshExpiresAt
  fresh : ∀ user row, f.origin.sessions.rows.get? user = some row →
    row.refreshToken ≠ pair.refresh

theorem Looked.usable_iff (h : f.Looked g) {config : TokenConfig} :
    g.Usable config pair ↔ f.Usable config pair := by
  have hwall := h.wall
  have hrows := h.record.sessions
  constructor
  · rintro ⟨hdeadline, hfresh⟩
    rw [hwall] at hdeadline
    rw [hrows] at hfresh
    exact ⟨hdeadline, hfresh⟩
  · rintro ⟨hdeadline, hfresh⟩
    rw [← hwall] at hdeadline
    rw [← hrows] at hfresh
    exact ⟨hdeadline, hfresh⟩

/-- A pair that is issued now is usable. -/
theorem perform_issuePair_usable (hf : f.Rightful) (htimely : f.Timely i) (user : UserId)
    (username : String) : ∃ pair,
      (f.perform i ((f.issuer i).issuePair user username)).1 = .ok pair ∧
        f.Usable (f.issuer i).config pair := by
  obtain ⟨pair, hissue, htokens⟩ := perform_issuePair user username htimely.deadlines (i := i)
  obtain ⟨hdeadline, htoken⟩ := htokens .refresh
  refine ⟨pair, by rw [hissue], hdeadline, fun owner row hrow hsame => ?_⟩
  -- What a session holds has an id that was drawn before.
  obtain ⟨config, username', time, expiresAt, tokenId, hdrawn, hheld⟩ := hf owner row hrow
  have hpayload := TokenConfig.mint_injective (TokenConfig.inRange_payload ..)
    (TokenConfig.inRange_payload ..) (hheld.symm.trans (hsame.trans htoken))
  have hid : tokenId = f.ids.id (f.minted + TokenKind.refresh.turn) :=
    congrArg Token.Payload.tokenId hpayload
  rw [hid, hasDrawn_id_iff] at hdrawn
  have hturn : TokenKind.refresh.turn = 2 := rfl
  omega

end Fleet

/-- The part of a refresh that follows its checks and writes nothing: the session is found, and a
pair is issued. -/
def Auth.offer (issuer : Issuer) (claims : Claims) (token : String) : Service TokenPair := do
  let session ← Sessions.getByToken token
  if session.user ≠ claims.user then throw .tokenInvalid
  issuer.issuePair claims.user claims.username

theorem Auth.prepare_eq_offer (issuer : Issuer) (token : String) :
    prepare issuer token = (do
      let claims ← issuer.verify .refresh token
      requireNotRevoked claims
      let tokens ← offer issuer claims token
      return (claims, tokens)) := by
  simp only [prepare, offer, bind_assoc]
  refine congrArg _ (funext fun claims => congrArg _ (funext fun _ => congrArg _
    (funext fun session => ?_)))
  split <;> rfl

namespace Fleet

/-- A pair is issued exactly if the session of the user holds the token. -/
theorem perform_offer (hcoherent : f.origin.sessions.Coherent) (hf : f.Rightful)
    (htimely : f.Timely i) (hpeek : (f.issuer i).config.peek token = .ok claims) :
    (f.Bears claims.user token ∧ ∃ pair, f.Usable (f.issuer i).config pair ∧
      (f.perform i (Auth.offer (f.issuer i) claims token)).1 = .ok pair) ∨
    ¬ f.Bears claims.user token ∧
      (f.perform i (Auth.offer (f.issuer i) claims token)).1 = .error .sessionNotFound := by
  rw [Auth.offer, perform_bind, perform_getByToken]
  rcases findByToken_of_rightful hcoherent hf hpeek with
    ⟨row, hfound, huser, hborne⟩ | ⟨hfound, hmissing⟩
  · rw [hfound]
    dsimp only [Option.elim]
    rw [if_neg (not_not_intro huser)]
    -- The pair is issued after the look-up.
    have hlooked : f.Looked (answer i (.session (.findByToken token f.wall)) f).2 :=
      ⟨(SameRecord.refl f).answer i trivial, rfl, fun _ => rfl, answer_onward f i _⟩
    obtain ⟨pair, hissue, husable⟩ := perform_issuePair_usable (hlooked.rightful hf)
      (hlooked.timely htimely) claims.user claims.username
    exact Or.inl ⟨hborne, pair, hlooked.usable_iff.1 husable, hissue⟩
  · rw [hfound]
    exact Or.inr ⟨hmissing, rfl⟩

/-- A refresh that has only looked so far either goes on with a token that everything speaks for,
and with a usable pair, or ends because something speaks against the token. -/
theorem prepare_cases (hcoherent : f.origin.sessions.Coherent) (hf : f.Rightful)
    (htimely : f.Timely i) (token : String) :
    (∃ claims pair, f.Admits i token claims ∧ f.Usable (f.issuer i).config pair ∧
      (f.perform i (Auth.prepare (f.issuer i) token)).1 = .ok (claims, pair)) ∨
    ∃ e, f.Refuses i token e ∧ (f.perform i (Auth.prepare (f.issuer i) token)).1 = .error e := by
  have hverify := perform_verify f i (f.issuer i) .refresh token
  rw [Auth.prepare_eq_offer, perform_bind, hverify]
  cases hverdict : (f.issuer i).config.verify .refresh f.wall token with
  | error e => exact Or.inr ⟨e, .bad (by rw [hverify, hverdict]), rfl⟩
  | ok claims =>
    have hgood : (f.perform i ((f.issuer i).verify .refresh token)).1 = .ok claims := by
      rw [hverify, hverdict]
    have hrevoked := perform_isRevoked f i claims.tokenId
    have hcutOff := perform_isUserRevoked f i claims.user claims.issuedAt
    -- Both checks answer for the fleet as it is at the beginning.
    have hchecked := perform_requireNotRevoked f i claims
    have hlooked := looked_of_looking (Auth.looking_requireNotRevoked claims) f i
    dsimp only
    rw [perform_bind]
    generalize f.perform i (Auth.requireNotRevoked claims) = checked at hchecked hlooked ⊢
    obtain ⟨verdict, g⟩ := checked
    dsimp only at hchecked hlooked
    split at hchecked
    · next hdenied =>
      subst hchecked
      rw [Bool.or_eq_true] at hdenied
      refine Or.inr ⟨_, .revoked hgood (hdenied.imp (fun hlists => ?_) fun hcuts => ?_), rfl⟩
      · exact hrevoked.trans (congrArg _ hlists)
      · exact hcutOff.trans (congrArg _ hcuts)
    next hcleared =>
    subst hchecked
    rw [Bool.not_eq_true, Bool.or_eq_false_iff] at hcleared
    have hpeek : (g.issuer i).config.peek token = .ok claims := by
      rw [hlooked.issuer]
      exact (TokenConfig.verify_eq_ok_iff.1 hverdict).1
    have hoffer := perform_offer (hlooked.coherent hcoherent) (hlooked.rightful hf)
      (hlooked.timely htimely) hpeek
    rw [hlooked.issuer, hlooked.bears_iff] at hoffer
    dsimp only
    rw [perform_bind]
    generalize g.perform i (Auth.offer (f.issuer i) claims token) = offered at hoffer ⊢
    obtain ⟨verdict, g'⟩ := offered
    dsimp only at hoffer
    rcases hoffer with ⟨hborne, pair, husable, rfl⟩ | ⟨hmissing, rfl⟩
    · refine Or.inl ⟨claims, pair, ⟨hgood, ?_, ?_, hborne⟩, hlooked.usable_iff.1 husable, rfl⟩
      · exact hrevoked.trans (congrArg _ hcleared.1)
      · exact hcutOff.trans (congrArg _ hcleared.2)
    · exact Or.inr ⟨_, .unheld hgood hmissing, rfl⟩

/-! ## From the new pair on -/

/-- A session that holds the old token is given the new one, if nobody has that. -/
theorem yields_rotate {ttl : Duration} {new : String} {expiresAt : Instant}
    (hrow : f.origin.sessions.rows.get? user = some row)
    (hfresh : ∀ other held, f.origin.sessions.rows.get? other = some held →
      held.refreshToken ≠ new)
    (hdeadline : f.wall.deadline? ttl = some expiresAt)
    {post : Except AuthError Unit → MemoryFleet n → Prop}
    (next : ∀ g, g.origin.sessions.rows =
        f.origin.sessions.rows.insert user { row with refreshToken := new, expiresAt } →
      g.origin.sessions.created = f.origin.sessions.created →
      g.origin.revocations = f.origin.revocations → g.origin.users = f.origin.users →
      post (.ok ()) g) :
    Yields i (Sessions.rotate user row.refreshToken new ttl) post f := by
  -- The write is not refused, and so it is done.
  have hdone : (f.origin.sessions.perform
        (.updateToken user (some row.refreshToken) new expiresAt)).1 = .ok true := by
    cases hreply : (f.origin.sessions.perform
        (.updateToken user (some row.refreshToken) new expiresAt)).1 with
    | ok written => rw [SessionStore.updated_of_held hrow hreply]
    | error e =>
      exact absurd hreply (SessionStore.update_ne_error fun other held hheld _ =>
        hfresh other held hheld)
  rcases f.origin.sessions.update_cases user (some row.refreshToken) new expiresAt with
    ⟨written, hwritten, -, -, hrows⟩ | ⟨hnot, -⟩
  · obtain rfl := Option.some.inj (hwritten.symm.trans hrow)
    rw [Sessions.rotate, Sessions.writeToken, yields_bind, yields_now]
    dsimp only
    rw [yields_bind, yields_lift, Service.deadline, hdeadline]
    dsimp only
    rw [yields_bind, yields_session, hdone]
    dsimp only
    rw [if_pos rfl, Sessions.invalidate, yields_bind, yields_cache]
    exact next _ hrows (SessionStore.update_created ..) rfl rfl
  · exact absurd hdone hnot

/-- A refresh that has a usable pair for the token that the session holds puts the old token on
record as revoked and the new one in its place. -/
theorem yields_commit {config : TokenConfig} (hborne : f.Bears claims.user token)
    (husable : f.Usable config pair) (hlifetime : config.refreshLifetime.isZero = false) :
    Yields i (Auth.commit claims token pair)
      (fun result g => result = .ok pair ∧ f.Rotated g claims pair) f := by
  obtain ⟨row, hfound, rfl⟩ := hborne
  have hrow := (SessionStore.findByUser_eq_some_iff.1 hfound).1
  rw [Auth.commit, yields_bind]
  refine yields_add _ _ fun g horigin hwall => ?_
  have hsessions : g.origin.sessions = f.origin.sessions := by rw [horigin]
  have hdeadline := husable.deadline
  have hfresh := husable.fresh
  rw [← hsessions] at hrow hfresh
  rw [← hwall] at hdeadline
  -- The new token lives for some time from now on.
  rw [yields_bind, yields_now]
  dsimp only
  rw [Instant.remaining?_deadline hdeadline, if_neg (Bool.not_eq_true _ ▸ hlifetime)]
  dsimp only
  rw [yields_bind]
  refine yields_rotate hrow hfresh hdeadline fun g' hrows hcreated hrevocations husers => ?_
  rw [hsessions] at hrow hrows hcreated
  rw [horigin] at hrevocations husers
  dsimp only
  rw [yields_pure]
  refine ⟨rfl, ⟨row, hrow, ?_⟩, fun other hother => ?_, hcreated, ?_, fun tokenId hid => ?_, ?_,
    husers⟩
  · rw [hrows, Table.get?_insert_self]
  · rw [hrows, Table.get?_insert, if_neg hother]
  · rw [hrevocations]
    exact RevocationStore.revokedUntil_insert ..
  · rw [hrevocations]
    exact (Table.get?_insert ..).trans (if_neg hid)
  · rw [hrevocations]
    rfl

/-! ## Both halves -/

/-- Whether nothing in the way of a refresh but its checks can make it fail: the session that it
finds is the one of the user whom the token names, and with its pair it also ends. -/
structure Unhindered (f : MemoryFleet n) (i : Fin n) (token : String) : Prop where
  owner : ∀ claims row, (f.perform i ((f.issuer i).verify .refresh token)).1 = .ok claims →
    f.origin.sessions.findByToken token f.wall = some row → row.user = claims.user
  commits : ∀ claims pair g,
    f.perform i (Auth.prepare (f.issuer i) token) = (.ok (claims, pair), g) →
      (g.perform i (Auth.commit claims token pair)).1 = .ok pair

section

variable (hcoherent : f.origin.sessions.Coherent) (hf : f.Rightful) (htimely : f.Timely i)

include hcoherent hf htimely

/-- What has been prepared is carried out. -/
theorem perform_commit
    (hprepared : f.perform i (Auth.prepare (f.issuer i) token) = (.ok (claims, pair), g)) :
    f.Admits i token claims ∧ (g.perform i (Auth.commit claims token pair)).1 = .ok pair ∧
      f.Rotated (g.perform i (Auth.commit claims token pair)).2 claims pair := by
  have hlooked : f.Looked g := by
    have hlooking := looked_of_looking (Auth.looking_prepare (f.issuer i) token) f i
    rwa [hprepared] at hlooking
  rcases prepare_cases hcoherent hf htimely token with
    ⟨claims', pair', hadmits, husable, hok⟩ | ⟨e, -, herror⟩
  · rw [hprepared] at hok
    cases hok
    obtain ⟨hended, hrotated⟩ := yields_commit (hlooked.bears_iff.2 hadmits.borne)
      (hlooked.usable_iff.2 husable) htimely.lifetime (i := i)
    exact ⟨hadmits, hended, hrotated.of_sameRecord hlooked.record⟩
  · rw [hprepared] at herror
    cases herror

theorem unhindered (token : String) : f.Unhindered i token where
  owner claims row hgood hfound := by
    rw [perform_verify] at hgood
    have hpeek := (TokenConfig.verify_eq_ok_iff.1 hgood).1
    rcases findByToken_of_rightful hcoherent hf hpeek with
      ⟨row', hfound', huser, -⟩ | ⟨hnone, -⟩
    · obtain rfl := Option.some.inj (hfound.symm.trans hfound')
      exact huser
    · cases hfound.symm.trans hnone
  commits claims pair g hprepared := (perform_commit hcoherent hf htimely hprepared).2.1

/-- A refresh goes on to its end with what it has prepared, or ends with what has kept it from
that. -/
theorem execute_refresh_cases (token : String) :
    (∃ claims pair, f.Admits i token claims ∧
      (f.execute i (.refresh token)).1 = .ok pair ∧
      f.Rotated (f.execute i (.refresh token)).2 claims pair) ∨
    ∃ e, f.Refuses i token e ∧ (f.execute i (.refresh token)).1 = .error e ∧
      f.SameRecord (f.execute i (.refresh token)).2 := by
  have hexecute : f.execute i (.refresh token) =
      f.perform i (Auth.prepare (f.issuer i) token >>= fun p => Auth.commit p.1 token p.2) :=
    congrArg (f.perform i) (Auth.refresh_eq_commit (f.issuer i) token)
  have hprepare := prepare_cases hcoherent hf htimely token
  have hlooked := looked_of_looking (Auth.looking_prepare (f.issuer i) token) f i
  rw [hexecute, perform_bind]
  cases hprepared : f.perform i (Auth.prepare (f.issuer i) token) with
  | mk result g =>
    rw [hprepared] at hprepare hlooked
    rcases hprepare with ⟨claims, pair, -, -, rfl⟩ | ⟨e, hrefuses, rfl⟩
    · exact Or.inl ⟨claims, pair, perform_commit hcoherent hf htimely hprepared⟩
    · exact Or.inr ⟨e, hrefuses, rfl, hlooked.record⟩

end

/-! ## Tokens that can be redeemed -/

theorem Unlisted.lists_eq_false (h : f.Unlisted i tokenId)
    (hmemory : (f.revoked i).contains f.wall tokenId = false) : f.lists i tokenId = false := by
  have hcached : (f.finds i .revocation (Key.blacklist tokenId)).any (fun r => r.active f.wall) =
      false := by
    rw [Option.any_eq_false]
    intro r hfound
    exact h.caches.of_fetch_alive ((answer_fetch ..).trans hfound)
  rw [lists, hmemory, hcached, h.record]
  rfl

theorem Unopposed.cutsOff_eq_false (h : f.Unopposed i claims) :
    f.cutsOff i claims.user claims.issuedAt = false := by
  unfold cutsOff cutoff?
  cases hfound : f.finds i .cutoff (Key.cutoff claims.user) with
  | some c => exact h.caches.of_fetch_alive ((answer_fetch ..).trans hfound)
  | none =>
    rw [Option.none_or, Option.any_map, Option.any_eq_false]
    intro t ht
    have hlater := h.record t ht
    simpa [Cutoff.revokes, Instant.not_le] using hlater

/-- Everything that a refresh looks at speaks for a token that can be redeemed. -/
theorem Redeemable.admits (h : f.Redeemable i token claims) : f.Admits i token claims where
  good := by rw [perform_verify, h.good]
  unrevoked :=
    (perform_isRevoked f i claims.tokenId).trans
      (congrArg _ (h.unlisted.lists_eq_false h.unopposed.memory))
  uncut :=
    (perform_isUserRevoked f i claims.user claims.issuedAt).trans
      (congrArg _ h.unopposed.cutsOff_eq_false)
  borne := h.borne

/-! ## Where no pair can be issued -/

open Demo

/-- An issuer of access tokens that would outlive the calendar. -/
def boundlessIssuer : Issuer :=
  { demoIssuer with
    config := { demoIssuer.config with accessLifetime := .ofSeconds 10000000000000 } }

theorem barren_boundlessIssuer : Parallel.Barren boundlessIssuer := by
  refine Parallel.barren_of_lifetimes (.ofSeconds 10000000000000)
    demoIssuer.config.refreshLifetime ⟨_, rfl, rfl⟩ fun htimely => ?_
  have hends := htimely.deadlines .access
  cases hends

/-- Whether, after a login at the first demo instance, a refresh at the second one fails, though its
refresh tokens would expire before the end of the calendar and everything that it looks at speaks
for the token. -/
def FailsAdmitted (issuer : Issuer) : Prop :=
  let f := (Parallel.demoMixed issuer).play [demoLogin 0]
  (Parallel.demoMixed issuer).Fresh ∧
    (f.wall.deadline? (f.issuer 1).config.refreshLifetime).isSome ∧
    f.Admits 1 demoRefreshToken demoRefreshClaims ∧
    ∃ e, (f.execute 1 (.refresh demoRefreshToken)).1 = .error e

theorem failsAdmitted_of_barren {issuer : Issuer} (hb : Parallel.Barren issuer)
    (hdeadline : (demo.wall.deadline? issuer.config.refreshLifetime).isSome) :
    FailsAdmitted issuer := by
  let f : MemoryFleet 2 := (Parallel.demoMixed issuer).play [demoLogin 0]
  have hwall : f.wall = demo.wall := execute_wall (Parallel.demoMixed issuer) ..
  have hissuer : f.issuer 1 = issuer := execute_issuer (Parallel.demoMixed issuer) ..
  have hends : (f.wall.deadline? (f.issuer 1).config.refreshLifetime).isSome := by
    rw [hwall, hissuer]
    exact hdeadline
  obtain ⟨hredeemable, huntimely⟩ := hb.redeemable
  exact ⟨Parallel.fresh_demoMixed issuer, hends, hredeemable.admits,
    refresh_untimely huntimely demoRefreshToken⟩

/-! ## The outcome -/

/-- After any run, a refresh that nothing comes between succeeds exactly if its token is good, both
checks at the instance answer that it is not revoked, and the session of its user holds it, at an
instance where a pair can be issued whose refresh token lives for some time.  Then the session holds
the new token, the old one is revoked, and nothing else has changed on record; otherwise nothing
has, and the error tells which of the three was missing. -/
theorem refresh_exact (hf : f.Fresh) (moves : List (Move n)) (i : Fin n)
    (htimely : (f.play moves).Timely i) (token : String) :
    let before := f.play moves
    let result := (before.execute i (.refresh token)).1
    let after := (before.execute i (.refresh token)).2
    ((∃ pair, result = .ok pair) ↔ ∃ claims, before.Admits i token claims) ∧
      (∀ claims pair, before.Admits i token claims → result = .ok pair →
        before.Rotated after claims pair) ∧
      (∀ e, result = .error e → before.Refuses i token e ∧ before.SameRecord after) ∧
      before.Unhindered i token := by
  intro before result after
  have hcoherent : before.origin.sessions.Coherent := (hf.regular_play moves).sessions
  have hrightful : before.Rightful := hf.rightful moves
  have hunhindered := unhindered hcoherent hrightful htimely token
  rcases execute_refresh_cases hcoherent hrightful htimely token with
    ⟨claims, pair, hadmits, hok, hrotated⟩ | ⟨e, hrefuses, herror, hsame⟩
  · refine ⟨iff_of_true ⟨pair, hok⟩ ⟨claims, hadmits⟩, fun claims' pair' hadmits' hok' => ?_,
      fun e herror => ?_, hunhindered⟩
    · obtain rfl := Except.ok.inj (hadmits.good.symm.trans hadmits'.good)
      obtain rfl := Except.ok.inj (hok.symm.trans hok')
      exact hrotated
    · cases hok.symm.trans herror
  · refine ⟨iff_of_false ?_ ?_, fun claims' pair' _ hok => ?_, fun e' herror' => ?_, hunhindered⟩
    · rintro ⟨pair, hok⟩
      cases hok.symm.trans herror
    · rintro ⟨claims, hadmits⟩
      exact hadmits.not_refuses hrefuses
    · cases hok.symm.trans herror
    · obtain rfl := Except.error.inj (herror.symm.trans herror')
      exact ⟨hrefuses, hsame⟩

/-- After a login at the first instance, a refresh at the second one succeeds. -/
theorem refresh_exact_demo :
    let before := demo.play [demoLogin 0]
    before.Timely 1 ∧ before.Admits 1 demoRefreshToken demoRefreshClaims ∧
      ∃ pair, (before.execute 1 (.refresh demoRefreshToken)).1 = .ok pair ∧
        before.Rotated (before.execute 1 (.refresh demoRefreshToken)).2 demoRefreshClaims pair := by
  intro before
  have htimely : before.Timely 1 :=
    (Parallel.timely_demo 1).congr (execute_wall ..) (execute_issuer ..)
  have hadmits : before.Admits 1 demoRefreshToken demoRefreshClaims :=
    (Parallel.redeemable_demo 1).admits
  obtain ⟨hiff, hrotated, -⟩ :=
    refresh_exact (fresh_start ..) [demoLogin 0] 1 htimely demoRefreshToken
  obtain ⟨pair, hok⟩ := hiff.2 ⟨_, hadmits⟩
  exact ⟨htimely, hadmits, pair, hok, hrotated _ pair hadmits hok⟩

/-- Refresh tokens that would live for no time, and access tokens that would live for longer than
there are dates, make refreshes fail that nothing else stands in the way of. -/
theorem admitted_refresh_fails : FailsAdmitted hastyIssuer ∧ FailsAdmitted boundlessIssuer :=
  ⟨failsAdmitted_of_barren Parallel.barren_hastyIssuer (by decide),
    failsAdmitted_of_barren barren_boundlessIssuer (by decide)⟩

end Fleet

end Bearer
