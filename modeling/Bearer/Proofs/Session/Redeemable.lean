/-
  Refresh tokens that can be redeemed.

  A refresh token can be redeemed at an instance if it is good by itself,
  nothing that counts now speaks against it there, and the session of its user
  holds it.  Of the requests that a refresh makes, only two take that away: the
  one that puts the token on record as revoked, and the one that replaces it in
  the session.

  Main definition: `Fleet.Redeemable`.  Main statements: `unopposed_answer`,
  `unlisted_answer` and `bears_answer`, each with what the exchanges say
  meanwhile.
-/
import Bearer.Proofs.Fleet.Issue
import Bearer.Proofs.Revocation.Spared
import Bearer.Proofs.Service.Refresh
import Bearer.Proofs.Session.Redemption

namespace Bearer

open Fleet

variable {n : Nat} {f : MemoryFleet n} {i j : Fin n} {h : History} {r : Request}
variable {token : String} {claims : Claims} {tokenId : String} {user : UserId}

/-! ## What is cached and still lives -/

/-- Whether a property holds of what is cached as long as that lives. -/
def WhileAlive {α : Type} (now : Moment) (p : α → Prop) (value : α) (deadline : Option Moment) :
    Prop :=
  (∀ d ∈ deadline, now < d) → p value

theorem shortens_whileAlive (key : String) (kind : Kind) (now : Moment) (p : kind.Content → Prop) :
    (EntryRule.under key kind (WhileAlive now p)).Shortens := by
  refine EntryRule.shortens_under fun value deadline sooner hp hsooner hlive => hp fun d hd => ?_
  exact Nat.lt_of_lt_of_le (hlive sooner rfl) (hsooner d hd)

theorem Fleet.Holds.of_fetch_alive {key : String} {kind : Kind} {p : kind.Content → Prop}
    (h : f.Holds (.under key kind (WhileAlive f.clock p)) i) {value : kind.Content}
    (hfound : (Fleet.answer i (.cache (.fetch kind key)) f).1 = some value) : p value := by
  obtain ⟨deadline, hp, hlive⟩ := h.of_fetch hfound
  exact hp hlive

namespace Fleet

/-- Whether an instance does not remember a token as revoked, and no cutoff of its user that counts
now covers it, on record or cached. -/
structure Unopposed (f : MemoryFleet n) (i : Fin n) (claims : Claims) : Prop where
  memory : (f.revoked i).contains f.wall claims.tokenId = false
  record : ∀ t ∈ f.origin.revocations.findCutoff claims.user f.wall, t < claims.issuedAt
  caches : f.Holds (.under (Key.cutoff claims.user) .cutoff
    (WhileAlive f.clock fun c => c.revokes claims.issuedAt = false)) i

/-- Whether no revocation of a token that counts now is on record or cached. -/
structure Unlisted (f : MemoryFleet n) (i : Fin n) (tokenId : String) : Prop where
  record : f.origin.revocations.findActive tokenId f.wall = none
  caches : f.Holds (.under (Key.blacklist tokenId) .revocation
    (WhileAlive f.clock fun r => r.active f.wall = false)) i

/-- Whether the session of a user holds a token and has not ended. -/
def Bears (f : MemoryFleet n) (user : UserId) (token : String) : Prop :=
  ∃ row, f.origin.sessions.findByUser user f.wall = some row ∧ row.refreshToken = token

/-- Whether a refresh token can be redeemed at an instance. -/
structure Redeemable (f : MemoryFleet n) (i : Fin n) (token : String) (claims : Claims) : Prop where
  good : (f.issuer i).config.verify .refresh f.wall token = .ok claims
  unopposed : f.Unopposed i claims
  unlisted : f.Unlisted i claims.tokenId
  borne : f.Bears claims.user token

/-- Whether the tokens that an instance issues now expire before the end of the calendar, and its
refresh tokens live for some time. -/
structure Timely (f : MemoryFleet n) (i : Fin n) : Prop where
  deadlines : ∀ kind, (f.wall.deadline? ((f.issuer i).config.lifetime kind)).isSome
  lifetime : (f.issuer i).config.refreshLifetime.isZero = false

/-- What holds of the stores of a fleet in whatever way they have been used, as long as no session
has been given a token that is still to be issued. -/
structure Regular (f : MemoryFleet n) : Prop where
  sessions : f.origin.sessions.Coherent
  revocations : f.origin.revocations.Keyed
  unforeseen : ∀ user row, f.origin.sessions.rows.get? user = some row →
    f.Unforeseen row.refreshToken

/-- However the calls of a run are interleaved, it leads to a regular fleet. -/
theorem Fresh.regular (hf : f.Fresh) (turns : List (Turn n)) :
    ((Parallel.idle f).run turns).fleet.Regular where
  sessions :=
    Parallel.run_keeps (P := fun g => g.origin.sessions.Coherent)
      (fun g i r hg => coherent_answer hg i r) (fun g e hg => by rwa [happen_origin]) hf.coherent
      turns
  revocations :=
    Parallel.run_keeps (P := fun g => g.origin.revocations.Keyed)
      (fun g i r hg => keyed_answer hg i r) (fun g e hg => by rwa [happen_origin]) hf.keyed turns
  unforeseen user row hrow := by
    -- What a row holds has been given to it, and what is given has been issued.
    have horderly := (Parallel.orderly_idle hf).run turns
    obtain ⟨k, c, hc, e, he, hgift⟩ := horderly.given user _ ⟨row, hrow, rfl⟩
    obtain ⟨config, username, time, expiresAt, tokenId, -, hdrew, -, htoken⟩ :=
      horderly.issued k c hc e he user _ hgift
    exact Drawn.unforeseen ⟨config, _, TokenConfig.inRange_payload ..,
      horderly.drawn k c hc tokenId hdrew, htoken⟩

/-- Whatever operations a run is made of, it leads to a regular fleet. -/
theorem Fresh.regular_play (hf : f.Fresh) (moves : List (Move n)) : (f.play moves).Regular where
  sessions :=
    play_keeps (P := fun g => g.origin.sessions.Coherent)
      (fun g i r hg => coherent_answer hg i r) (fun g e hg => by rwa [happen_origin]) hf.coherent
      moves
  revocations :=
    play_keeps (P := fun g => g.origin.revocations.Keyed)
      (fun g i r hg => keyed_answer hg i r) (fun g e hg => by rwa [happen_origin]) hf.keyed moves
  unforeseen user row hrow := by
    obtain ⟨config, username, time, expiresAt, tokenId, hid, htoken⟩ :=
      hf.rightful moves user row hrow
    exact Drawn.unforeseen ⟨config, _, TokenConfig.inRange_payload .., hid, htoken⟩

theorem Fresh.regular_execute (hf : f.Fresh) (i : Fin n) (o : Operation) :
    (f.execute i o).2.Regular :=
  hf.regular_play [.execute i o]

/-- A token that nothing speaks against can be redeemed, if it is good by itself and in the
session. -/
theorem Spared.redeemable {t : Instant} (hs : f.Spared claims.tokenId t) (hwall : t ≤ f.wall)
    (hu : f.Uncut claims.user claims.issuedAt)
    (hgood : (f.issuer i).config.verify .refresh f.wall token = .ok claims)
    (hborne : f.Bears claims.user token) : f.Redeemable i token claims where
  good := hgood
  unopposed :=
    { memory := hs.forgotten hwall i
      record := fun _ hfound => RevocationStore.lt_of_findCutoff hu.record hfound
      caches := (hu.caches i).imp fun _ _ hrevokes _ => hrevokes }
  unlisted :=
    { record := hs.unrecorded hwall
      caches := by
        refine (hs.caches i).imp fun row _ hle _ => ?_
        simpa [Revocation.active, Instant.not_lt] using Instant.le_trans hle hwall }
  borne := hborne

/-- A login takes no token out of use. -/
theorem Fresh.redeemable_login (hf : f.Fresh) (username password : String)
    (hgood : (f.issuer i).config.verify .refresh f.wall token = .ok claims)
    (hborne : (f.execute j (.login username password)).2.Bears claims.user token) :
    (f.execute j (.login username password)).2.Redeemable i token claims := by
  have hs := ((preserved_spared claims.tokenId f.wall).execute (hf.spared _ _)
    (i := j) (o := .login username password) (spares_of_retired rfl _)).1
  have hu := ((preserved_uncut claims.user claims.issuedAt).execute (hf.uncut _ _)
    (i := j) (o := .login username password) Operation.noConfusion).1
  refine hs.redeemable ?_ hu ?_ hborne
  · rw [execute_wall]
    exact Instant.le_refl _
  · rwa [execute_issuer, execute_wall]

/-- Only the wall clock and the issuer matter. -/
theorem Timely.congr {g : MemoryFleet n} (h : f.Timely i) (hwall : g.wall = f.wall)
    (hissuer : g.issuer i = f.issuer i) : g.Timely i where
  deadlines kind := by
    rw [hwall, hissuer]
    exact h.deadlines kind
  lifetime := by
    rw [hissuer]
    exact h.lifetime

end Fleet

/-! ## Events that take no time -/

/-- Whether no time passes in an event. -/
def Event.Timeless : Event n → Prop
  | .pass .. => False
  | _ => True

theorem Event.Timeless.wall {e : Event n} (h : e.Timeless) : (f.happen e).wall = f.wall := by
  cases e with
  | pass byWall byClock => exact absurd h id
  | _ => rfl

theorem Event.Timeless.clock {e : Event n} (h : e.Timeless) : (f.happen e).clock = f.clock := by
  cases e with
  | pass byWall byClock => exact absurd h id
  | _ => rfl

namespace Fleet

theorem Unopposed.happen (hu : f.Unopposed j claims) {e : Event n} (h : e.Timeless) :
    (f.happen e).Unopposed j claims where
  memory := by
    rw [happen_revoked, h.wall]
    exact hu.memory
  record := by
    rw [happen_origin, h.wall]
    exact hu.record
  caches := by
    rw [h.clock]
    exact hu.caches.happen e

theorem Unlisted.happen (hu : f.Unlisted j tokenId) {e : Event n} (h : e.Timeless) :
    (f.happen e).Unlisted j tokenId where
  record := by
    rw [happen_origin, h.wall]
    exact hu.record
  caches := by
    rw [h.clock, h.wall]
    exact hu.caches.happen e

theorem Bears.happen (hb : f.Bears user token) {e : Event n} (h : e.Timeless) :
    (f.happen e).Bears user token := by
  unfold Bears
  rw [happen_origin, h.wall]
  exact hb

end Fleet

/-! ## What a refresh does not change -/

/-- What an exchange says about a token that nothing but its revocation speaks against. -/
def UnopposedFact (claims : Claims) (x : Exchange) : Prop :=
  UncutFact claims.user claims.issuedAt x ∧ x ≠ ⟨.isRemembered claims.tokenId, true⟩

theorem unopposed_answer (hu : f.Unopposed j claims)
    (hfacts : ∀ x ∈ h, UnopposedFact claims x) {o : Operation}
    (hconduct : conduct (f.issuer i) o h r) (hredeems : h.Redeems r) :
    (answer i r f).2.Unopposed j claims := by
  refine ⟨?_, ?_, ?_⟩
  · rw [answer_revoked, answer_wall]
    cases r with
    | remember other expiresAt => exact (hredeems.elim (fun hlooks => hlooks.1) id).elim
    | _ => exact hu.memory
  · rw [answer_revocations, answer_wall]
    cases r with
    | revocation c =>
      cases c with
      | insertCutoff other revokedBefore expiresAt =>
        exact (hredeems.elim (fun hlooks => hlooks.1) id).elim
      | deleteExpired time => exact (hredeems.elim (fun hlooks => hlooks.1) id).elim
      | _ => exact hu.record
    | _ => exact hu.record
  · rw [answer_clock]
    refine hu.caches.answer (shortens_whileAlive ..) ?_
    rintro c rfl
    -- A cutoff that is cached anew is the one on record.
    refine keeps_cutoff hconduct fun revokedBefore time hfind _ => ?_
    have hlt : revokedBefore < claims.issuedAt := (hfacts _ hfind).1 rfl
    simpa [Cutoff.revokes, Instant.not_le] using hlt

theorem unopposedFact_answer (hu : f.Unopposed i claims)
    (htold : ∀ t, h.Told t → t = f.wall) (hredeems : h.Redeems r) :
    UnopposedFact claims ⟨r, (answer i r f).1⟩ := by
  refine ⟨?_, fun heq => ?_⟩
  · cases r with
    | revocation c =>
      cases c with
      | findCutoff other time =>
        have htime : time = f.wall :=
          htold time (hredeems.elim (fun hlooks => hlooks.2 time rfl) False.elim)
        subst htime
        show UncutFact claims.user claims.issuedAt ⟨.revocation (.findCutoff other f.wall),
          .ok (f.origin.revocations.findCutoff other f.wall)⟩
        cases hfound : f.origin.revocations.findCutoff other f.wall with
        | none => trivial
        | some revokedBefore =>
          rintro rfl
          exact hu.record revokedBefore hfound
      | _ => trivial
    | cache c =>
      cases c with
      | fetch kind key =>
        cases kind with
        | cutoff =>
          rintro rfl cutoff hfound
          exact hu.caches.of_fetch_alive hfound
        | _ => trivial
      | _ => trivial
    | _ => trivial
  · cases r with
    | isRemembered other =>
      have hother : other = claims.tokenId :=
        Request.isRemembered.inj (congrArg Exchange.request heq)
      subst hother
      have hreply : (f.revoked i).contains f.wall claims.tokenId = true :=
        eq_of_heq (Exchange.mk.inj heq).2
      rw [hu.memory] at hreply
      cases hreply
    | _ => cases heq

theorem unlisted_answer (hu : f.Unlisted j tokenId)
    (hfacts : ∀ x ∈ h, SparedFact tokenId f.wall f.wall x)
    (hlists : ∀ expiresAt, r = .revocation (.insert tokenId expiresAt) → expiresAt ≤ f.wall)
    {o : Operation} (hconduct : conduct (f.issuer i) o h r) (hredeems : h.Redeems r) :
    (answer i r f).2.Unlisted j tokenId := by
  refine ⟨?_, ?_⟩
  · rw [answer_revocations, answer_wall]
    cases r with
    | revocation c =>
      cases c with
      | insert other expiresAt =>
        refine RevocationStore.findActive_insert_eq_none hu.record fun heq => ?_
        exact hlists expiresAt (by rw [heq])
      | deleteExpired time => exact (hredeems.elim (fun hlooks => hlooks.1) id).elim
      | _ => exact hu.record
    | _ => exact hu.record
  · rw [answer_clock, answer_wall]
    refine hu.caches.answer (shortens_whileAlive ..) ?_
    rintro c rfl
    refine keeps_blacklist hconduct fun row ttl hid hsource _ => ?_
    -- What is cached has been written or read, and neither counts any more.
    have hle : row.expiresAt ≤ f.wall := by
      rcases hsource with hinsert | ⟨other, time, hfind⟩
      · exact hfacts _ hinsert rfl
      · obtain ⟨hother, -, hle⟩ := hfacts _ hfind
        exact hle (hother.symm.trans hid)
    simpa [Revocation.active, Instant.not_lt] using hle

theorem unlistedFact_answer (hu : f.Unlisted i tokenId)
    (hmemory : (f.revoked i).contains f.wall tokenId = false)
    (hkeyed : f.origin.revocations.Keyed) (htold : ∀ t, h.Told t → t = f.wall)
    (hlists : ∀ expiresAt, r = .revocation (.insert tokenId expiresAt) → expiresAt ≤ f.wall)
    (hredeems : h.Redeems r) : SparedFact tokenId f.wall f.wall ⟨r, (answer i r f).1⟩ := by
  cases r with
  | isRemembered other =>
    rintro rfl hremembered
    have hreply : (f.revoked i).contains f.wall other = true := hremembered
    rw [hmemory] at hreply
    cases hreply
  | revocation c =>
    cases c with
    | insert other expiresAt =>
      rintro rfl
      exact hlists expiresAt rfl
    | findActive other time =>
      have htime : time = f.wall :=
        htold time (hredeems.elim (fun hlooks => hlooks.2 time rfl) False.elim)
      subst htime
      show SparedFact tokenId f.wall f.wall ⟨.revocation (.findActive other f.wall),
        .ok (f.origin.revocations.findActive other f.wall)⟩
      cases hfound : f.origin.revocations.findActive other f.wall with
      | none => trivial
      | some row =>
        obtain ⟨hrow, hactive⟩ := Option.filter_eq_some_iff.1 hfound
        refine ⟨hkeyed other row hrow, of_decide_eq_true hactive, ?_⟩
        rintro rfl
        rw [hu.record] at hfound
        cases hfound
    | _ => trivial
  | cache c =>
    cases c with
    | fetch kind key =>
      cases kind with
      | revocation =>
        rintro rfl row hfound
        have hinactive : row.active f.wall = false := hu.caches.of_fetch_alive hfound
        simpa [Revocation.active, Instant.not_lt] using hinactive
      | _ => trivial
    | _ => trivial
  | _ => trivial

/-! ## The session -/

/-- The rows of a store that a request of a refresh leaves as they are, unless it replaces a
token. -/
theorem rows_answer (hredeems : h.Redeems r)
    (hreplaces : ¬ Exchange.Replaces ⟨r, (answer i r f).1⟩) :
    (answer i r f).2.origin.sessions.rows = f.origin.sessions.rows := by
  rw [answer_sessions]
  cases r with
  | session c =>
    cases c with
    | updateToken owner expected new expiresAt =>
      have hreply : (f.origin.sessions.perform (.updateToken owner expected new expiresAt)).1 ≠
          .ok true := by
        intro hok
        apply hreplaces
        show Exchange.Replaces ⟨.session (.updateToken owner expected new expiresAt),
          (f.origin.sessions.perform (.updateToken owner expected new expiresAt)).1⟩
        rw [hok]
        trivial
      exact congrArg SessionStore.rows (SessionStore.perform_of_not_updated hreply)
    | findByToken wanted time => rfl
    | _ => exact (hredeems.elim (fun hlooks => hlooks.1) id).elim
  | _ => rfl

theorem bears_answer (hb : f.Bears user token) (hredeems : h.Redeems r)
    (hreplaces : ¬ Exchange.Replaces ⟨r, (answer i r f).1⟩) :
    (answer i r f).2.Bears user token := by
  obtain ⟨row, hrow, htoken⟩ := hb
  refine ⟨row, ?_, htoken⟩
  rw [answer_wall, SessionStore.findByUser, rows_answer hredeems hreplaces]
  exact hrow

/-- What an exchange says about a session that holds a token: it is found by the token, and the
token can be replaced. -/
def BorneFact (user : UserId) (token : String) : Exchange → Prop
  | ⟨.session (.findByToken wanted _), .ok found⟩ =>
    wanted = token → ∃ row, found = some row ∧ row.user = user
  | ⟨.session (.updateToken owner expected _ _), .ok written⟩ =>
    owner = user → expected = some token → written = true
  | _ => True

theorem borneFact_answer (hb : f.Bears user token) (hcoherent : f.origin.sessions.Coherent)
    (htold : ∀ t, h.Told t → t = f.wall) (hredeems : h.Redeems r) :
    BorneFact user token ⟨r, (answer i r f).1⟩ := by
  obtain ⟨row, hrow, htoken⟩ := hb
  have hget := (SessionStore.findByUser_eq_some_iff.1 hrow).1
  have huser := hcoherent.keyed user row hget
  cases r with
  | session c =>
    cases c with
    | findByToken wanted time =>
      have htime : time = f.wall :=
        htold time (hredeems.elim (fun hlooks => hlooks.2 time rfl) False.elim)
      subst htime
      rintro rfl
      subst huser
      exact ⟨row, hcoherent.findByToken_eq_some_iff.2 ⟨hrow, htoken⟩, rfl⟩
    | updateToken owner expected new expiresAt =>
      show BorneFact user token ⟨.session (.updateToken owner expected new expiresAt),
        (f.origin.sessions.perform (.updateToken owner expected new expiresAt)).1⟩
      cases hreply : (f.origin.sessions.perform (.updateToken owner expected new expiresAt)).1 with
      | error e => trivial
      | ok written =>
        rintro rfl rfl
        rw [← htoken] at hreply
        exact SessionStore.updated_of_held hget hreply
    | _ => trivial
  | _ => trivial

end Bearer
