/-
  Writing into a session that has ended.

  Look-ups pass over a session that has ended, but a write only asks whether
  there is a row and whether it holds the token that is expected.  So a session
  that has ended can be written into, and lasts again, until it is purged; only
  a write that expects another token, or comes after the purge, finds none.

  Main statements: `perform_writeToken`, `fails_of_deadline`, `fails_of_taken`,
  `get_of_ended`, `getByToken_of_ended` and `writes_of_ended`.
-/
import Bearer.Proofs.Session.Lookup
import Bearer.Proofs.Store.Identity

namespace Bearer.Fleet

variable {n : Nat} {f : MemoryFleet n} {i : Fin n} {user : UserId} {row : Session}
variable {expected : Option String} {old token : String} {ttl : Duration} {expiresAt : Instant}

/-! ## What a write answers -/

/-- Whether a write fails, and leaves the sessions on record as they are. -/
def Fails (f : MemoryFleet n) (i : Fin n) (write : Service Unit) (e : AuthError) : Prop :=
  (f.perform i write).1 = .error e ∧ (f.perform i write).2.origin.sessions = f.origin.sessions

/-- Whether a write gives a user's row a token and an expiry, and changes no more. -/
def Rewrites (f : MemoryFleet n) (i : Fin n) (write : Service Unit) (user : UserId)
    (token : String) (expiresAt : Instant) : Prop :=
  ∃ row, f.origin.sessions.rows.get? user = some row ∧ (f.perform i write).1 = .ok () ∧
    (f.perform i write).2.origin.sessions.rows =
      f.origin.sessions.rows.insert user { row with refreshToken := token, expiresAt }

/-- A write ends as the update of the record does. -/
theorem yields_writeToken (f : MemoryFleet n) (i : Fin n) (user : UserId)
    (expected : Option String) (token : String)
    (hdeadline : f.wall.deadline? ttl = some expiresAt) :
    Yields i (Sessions.writeToken user expected token ttl) (fun result g =>
      g.origin.sessions =
        (f.origin.sessions.perform (.updateToken user expected token expiresAt)).2 ∧
      result = match (f.origin.sessions.perform
          (.updateToken user expected token expiresAt)).1 with
        | .ok true => .ok ()
        | .ok false => .error .sessionNotFound
        | .error e => .error e) f := by
  rw [Sessions.writeToken, yields_bind, yields_now]
  dsimp only
  rw [yields_bind, yields_lift, Service.deadline, hdeadline]
  dsimp only
  rw [yields_bind, yields_session]
  cases (f.origin.sessions.perform (.updateToken user expected token expiresAt)).1 with
  | error e => exact ⟨rfl, rfl⟩
  | ok written =>
    cases written with
    | false => exact ⟨rfl, rfl⟩
    | true =>
      dsimp only
      rw [if_pos rfl, Sessions.invalidate, yields_bind, yields_cache]
      exact ⟨rfl, rfl⟩

/-- A write goes by what the user's row holds, whether the session has ended or not. -/
theorem perform_writeToken (f : MemoryFleet n) (i : Fin n) (expected : Option String)
    (hdeadline : f.wall.deadline? ttl = some expiresAt)
    (hfree : f.origin.sessions.takenByOther user token = false) :
    (∀ row, f.origin.sessions.rows.get? user = some row →
      (∀ old ∈ expected, row.refreshToken = old) →
      f.Rewrites i (Sessions.writeToken user expected token ttl) user token expiresAt) ∧
    ((∀ row, f.origin.sessions.rows.get? user = some row →
      ¬ ∀ old ∈ expected, row.refreshToken = old) →
      f.Fails i (Sessions.writeToken user expected token ttl) .sessionNotFound) := by
  obtain ⟨hsessions, hresult⟩ := f.yields_writeToken i user expected token hdeadline
  have hdone : (f.origin.sessions.perform (.updateToken user expected token expiresAt)).1 =
      .ok true ↔ _ := SessionStore.updated_iff
  rw [hfree, eq_self, true_and] at hdone
  rcases f.origin.sessions.update_cases user expected token expiresAt with
    ⟨row, hrow, hexpected, hreply, hrows⟩ | ⟨hnot, hsame⟩
  · refine ⟨fun _ _ _ => ?_, fun hunheld => absurd hexpected (hunheld row hrow)⟩
    rw [hreply] at hresult
    exact ⟨row, hrow, hresult, hsessions ▸ hrows⟩
  · refine ⟨fun row hrow hexpected => absurd (hdone.2 ⟨row, hrow, hexpected⟩) hnot, fun _ => ?_⟩
    refine ⟨?_, hsessions.trans hsame⟩
    cases hreply : (f.origin.sessions.perform (.updateToken user expected token expiresAt)).1 with
    | ok written =>
      cases written with
      | true => exact absurd hreply hnot
      | false => rwa [hreply] at hresult
    | error e =>
      -- Only a token that another user's row holds is refused.
      refine absurd hreply (SessionStore.update_ne_error fun other row hrow hne hheld => ?_)
      rw [SessionStore.takenByOther_iff.2 ⟨other, row, hrow, hne, hheld⟩] at hfree
      cases hfree

/-- A write for a time past the end of the calendar fails before the record is asked. -/
theorem fails_of_deadline (f : MemoryFleet n) (i : Fin n) (user : UserId)
    (expected : Option String) (token : String) (hdeadline : f.wall.deadline? ttl = none) :
    f.Fails i (Sessions.writeToken user expected token ttl)
      (.internal (.lifetimeOutOfRange ttl)) := by
  have hyields : Yields i (Sessions.writeToken user expected token ttl) (fun result g =>
      result = .error (.internal (.lifetimeOutOfRange ttl)) ∧
        g.origin.sessions = f.origin.sessions) f := by
    rw [Sessions.writeToken, yields_bind, yields_now]
    dsimp only
    rw [yields_bind, yields_lift, Service.deadline, hdeadline]
    exact ⟨rfl, rfl⟩
  exact hyields

/-- A write of a token that another user's row holds is refused, whatever the user's row is. -/
theorem fails_of_taken (f : MemoryFleet n) (i : Fin n) (expected : Option String)
    (hdeadline : f.wall.deadline? ttl = some expiresAt)
    (htaken : f.origin.sessions.takenByOther user token = true) :
    f.Fails i (Sessions.writeToken user expected token ttl)
      (.persistence .duplicateRefreshToken) := by
  obtain ⟨hsessions, hresult⟩ := f.yields_writeToken i user expected token hdeadline
  have hrefused : f.origin.sessions.perform (.updateToken user expected token expiresAt) =
      (.error (.persistence .duplicateRefreshToken), f.origin.sessions) := by
    rw [SessionStore.perform, htaken, if_pos rfl]
  rw [hrefused] at hsessions hresult
  exact ⟨hresult, hsessions⟩

/-! ## A session that has ended -/

/-- A look-up by user answers no session that has ended, but one that is cached may last longer than
the one on record. -/
theorem get_of_ended (hended : f.origin.sessions.findByUser user f.wall = none) {s : Session}
    (hget : (f.perform i (Sessions.get user)).1 = .ok s) :
    f.finds i .session (Key.session user) = some s ∧ s.expired f.wall = false := by
  have hsession : f.sessionOf i user = .ok s := (f.execute_session i user).symm.trans hget
  have hnone : ∀ e, f.recordedOr user e = .error e := fun e => by rw [recordedOr, hended]
  unfold sessionOf at hsession
  cases hfound : f.finds i .session (Key.session user) with
  | none =>
    rw [hfound] at hsession
    dsimp only at hsession
    rw [hnone] at hsession
    cases hsession
  | some cached =>
    rw [hfound] at hsession
    dsimp only at hsession
    split at hsession
    · rw [hnone] at hsession
      cases hsession
    · next hlive =>
      obtain rfl := Except.ok.inj hsession
      exact ⟨rfl, Bool.eq_false_iff.2 hlive⟩

/-- No token finds a session that has ended. -/
theorem getByToken_of_ended (hcoherent : f.origin.sessions.Coherent)
    (hended : f.origin.sessions.findByUser user f.wall = none) {s : Session}
    (hget : (f.perform i (Sessions.getByToken token)).1 = .ok s) : s.user ≠ user := by
  rintro rfl
  have hyields : Yields i (Sessions.getByToken token)
      (fun result _ => ∀ s, result = .ok s → f.origin.sessions.findByToken token f.wall = some s)
      f := by
    rw [Sessions.getByToken, yields_bind, yields_now]
    dsimp only
    rw [yields_bind, yields_session, SessionStore.perform]
    dsimp only
    cases f.origin.sessions.findByToken token f.wall with
    | none =>
      intro s hs
      cases hs
    | some found =>
      intro s hs
      exact congrArg some (Except.ok.inj hs)
  have hfound := hyields s hget
  rw [(hcoherent.findByToken_eq_some_iff.1 hfound).1] at hended
  cases hended

/-- A session that has ended is reported by no look-up, but for a cached copy that has not ended.  A
write for a time past the end of the calendar fails, and so does one of a token that another user's
row holds.  Any other write fails as for a user without a session if the row has been purged or does
not hold the token that is expected, and otherwise makes the session last again. -/
theorem writes_of_ended (f : MemoryFleet n) (i : Fin n) (user : UserId)
    (hcoherent : f.origin.sessions.Coherent)
    (hended : f.origin.sessions.findByUser user f.wall = none) :
    (∀ s, (f.perform i (Sessions.get user)).1 = .ok s →
      f.finds i .session (Key.session user) = some s ∧ s.expired f.wall = false) ∧
    (∀ token s, (f.perform i (Sessions.getByToken token)).1 = .ok s → s.user ≠ user) ∧
    (∀ expected token ttl, f.wall.deadline? ttl = none →
      f.Fails i (Sessions.writeToken user expected token ttl)
        (.internal (.lifetimeOutOfRange ttl))) ∧
    ∀ token ttl expiresAt, f.wall.deadline? ttl = some expiresAt →
      (f.origin.sessions.takenByOther user token = true → ∀ expected,
        f.Fails i (Sessions.writeToken user expected token ttl)
          (.persistence .duplicateRefreshToken)) ∧
      (f.origin.sessions.takenByOther user token = false →
        (f.origin.sessions.rows.get? user = none →
          f.Fails i (Sessions.update user token ttl) .sessionNotFound) ∧
        (f.origin.sessions.rows.get? user ≠ none →
          f.Rewrites i (Sessions.update user token ttl) user token expiresAt) ∧
        ∀ old,
          ((∀ row, f.origin.sessions.rows.get? user = some row → row.refreshToken ≠ old) →
            f.Fails i (Sessions.rotate user old token ttl) .sessionNotFound) ∧
          ∀ row, f.origin.sessions.rows.get? user = some row → row.refreshToken = old →
            f.Rewrites i (Sessions.rotate user old token ttl) user token expiresAt) := by
  refine ⟨fun s => get_of_ended hended, fun token s => getByToken_of_ended hcoherent hended,
    fun expected token ttl => f.fails_of_deadline i user expected token,
    fun token ttl expiresAt hdeadline =>
      ⟨fun htaken expected => f.fails_of_taken i expected hdeadline htaken, fun hfree => ?_⟩⟩
  obtain ⟨hupdates, hmisses⟩ := f.perform_writeToken i none hdeadline hfree
  refine ⟨fun hpurged => ?_, fun hrow => ?_, fun old => ?_⟩
  · refine hmisses fun row hrow => ?_
    rw [hpurged] at hrow
    cases hrow
  · obtain ⟨row, hrow⟩ := Option.ne_none_iff_exists'.1 hrow
    exact hupdates row hrow nofun
  · obtain ⟨hrotates, hmisses⟩ := f.perform_writeToken i (some old) hdeadline hfree
    refine ⟨fun hunheld => hmisses fun row hrow hexpected => ?_, fun row hrow hheld => ?_⟩
    · exact hunheld row hrow (hexpected old rfl)
    · exact hrotates row hrow fun _ hold => hheld.trans (Option.some.inj hold)

/-! ## A session that lasts again -/

open Demo

/-- A minute after the demo user was given a session that lasts for a minute. -/
def demoEnded : MemoryFleet 2 :=
  (demo.perform 0 (Sessions.create demoUser "old" demoMinute)).2.happen
    (.pass (.ofSeconds 60) (.ofSeconds 60))

/-- The row of the session that has ended. -/
def demoEndedRow : Session :=
  { id := 1
    user := demoUser
    refreshToken := "old"
    expiresAt := demoMinute
    createdAt := .epoch }

/-- The same after the session has been purged. -/
def demoPurged : MemoryFleet 2 := (demoEnded.perform 0 Sessions.purge).2

/-- A write that expects another token finds no session, before the purge as after it, and nor does
any write after it. -/
theorem writes_of_ended_demo :
    demoEnded.Fails 0 (Sessions.rotate demoUser "older" "new" (.ofSeconds 60)) .sessionNotFound ∧
      demoPurged.Fails 0 (Sessions.rotate demoUser "older" "new" (.ofSeconds 60))
        .sessionNotFound ∧
      demoPurged.Fails 0 (Sessions.update demoUser "new" (.ofSeconds 60)) .sessionNotFound := by
  have hreached : demoEnded.origin.sessions.Reached :=
    SessionStore.Reached.empty.perform (.upsert demoUser "old" demoMinute .epoch)
  have hpurged : demoPurged.origin.sessions.Reached := hreached.perform (.deleteExpired demoMinute)
  have hnone : demoPurged.origin.sessions.rows.get? demoUser = none := by decide
  have hdeadline : demoMinute.deadline? (.ofSeconds 60) =
      some { second := 120, nanos := 0 } := by decide
  obtain ⟨-, -, -, hwrites⟩ := demoEnded.writes_of_ended 0 demoUser hreached.coherent (by decide)
  obtain ⟨-, -, hrotates⟩ := (hwrites "new" _ _ hdeadline).2 (by decide)
  obtain ⟨-, -, -, hwritesLate⟩ :=
    demoPurged.writes_of_ended 0 demoUser hpurged.coherent (by decide)
  obtain ⟨hupdatesLate, -, hrotatesLate⟩ := (hwritesLate "new" _ _ hdeadline).2 (by decide)
  refine ⟨(hrotates "older").1 ?_, (hrotatesLate "older").1 ?_, hupdatesLate hnone⟩
  · intro row hrow
    have hheld : demoEnded.origin.sessions.rows.get? demoUser = some demoEndedRow := by decide
    obtain rfl := Option.some.inj (hrow.symm.trans hheld)
    decide
  · intro row hrow
    rw [hnone] at hrow
    cases hrow

/-- No look-up reports the session, but a write makes it last again. -/
theorem ended_session_revived :
    demoEnded.origin.sessions.rows.get? demoUser = some demoEndedRow ∧
      demoEndedRow.expired demoEnded.wall = true ∧
      (demoEnded.perform 0 (Sessions.get demoUser)).1 = .error .sessionNotFound ∧
      (demoEnded.perform 0 (Sessions.getByToken "old")).1 = .error .sessionNotFound ∧
      (demoEnded.perform 0 (Sessions.update demoUser "new" (.ofSeconds 60))).1 = .ok () ∧
      (demoEnded.perform 0 (Sessions.rotate demoUser "old" "new" (.ofSeconds 60))).1 = .ok () ∧
      (((demoEnded.perform 0 (Sessions.update demoUser "new" (.ofSeconds 60))).2.origin.sessions
        |>.findByUser demoUser demoEnded.wall).map Session.refreshToken) = some "new" := by
  refine ⟨by decide, by decide, ?_, ?_, ?_, ?_, ?_⟩
  · rfl
  · rfl
  · rfl
  · rfl
  · decide

end Bearer.Fleet
