/-
  What looking up a session finds.

  Only the record knows the session of a user for certain.  A cache may hold an
  older one, one of another user, or none, and a look-up by user answers what it
  holds as long as that has not ended.  Whether a session holds a token is asked
  of the record as well wherever the cached session does not hold it, so that
  nobody with the token on record is turned away, whatever the caches hold.

  Main statements: `execute_session`, `execute_holdsToken` and
  `holdsToken_of_row`.
-/
import Bearer.Proofs.Fleet.Perform
import Bearer.Proofs.Fleet.Start

namespace Bearer

open Fleet

namespace Fleet

variable {n : Nat} {f : MemoryFleet n} {i : Fin n} {user : UserId} {token : String}

/-- The session of record of a user, or an error if there is none or it has ended. -/
def recordedOr (f : MemoryFleet n) (user : UserId) (e : AuthError) : Except AuthError Session :=
  match f.origin.sessions.findByUser user f.wall with
  | some s => .ok s
  | none => .error e

/-- What a look-up by user answers: the cached session unless it has ended, else the one of
record. -/
def sessionOf (f : MemoryFleet n) (i : Fin n) (user : UserId) : Except AuthError Session :=
  match f.finds i .session (Key.session user) with
  | some s => if s.expired f.wall then f.recordedOr user .sessionExpired else .ok s
  | none => f.recordedOr user .sessionNotFound

/-- Whether an instance finds a session cached for a user that has not ended and holds a token. -/
def cachedHolds (f : MemoryFleet n) (i : Fin n) (user : UserId) (token : String) : Bool :=
  (f.finds i .session (Key.session user)).any fun s =>
    !s.expired f.wall && s.refreshToken = token

/-- Whether the session of record of a user has not ended and holds a token. -/
def recordHolds (f : MemoryFleet n) (user : UserId) (token : String) : Bool :=
  (f.origin.sessions.findByUser user f.wall).any fun s => s.refreshToken = token

theorem recordedOr_eq_ok_iff {e : AuthError} {s : Session} : f.recordedOr user e = .ok s ↔
    f.origin.sessions.findByUser user f.wall = some s := by
  unfold recordedOr
  cases f.origin.sessions.findByUser user f.wall <;> simp

theorem recordedOr_eq_error_iff {e e' : AuthError} : f.recordedOr user e = .error e' ↔
    e = e' ∧ f.origin.sessions.findByUser user f.wall = none := by
  unfold recordedOr
  cases f.origin.sessions.findByUser user f.wall <;> simp

theorem recordHolds_eq_true_iff :
    f.recordHolds user token = true ↔ ∃ row, f.origin.sessions.rows.get? user = some row ∧
      f.wall < row.expiresAt ∧ row.refreshToken = token := by
  simp only [recordHolds, Option.any_eq_true, SessionStore.findByUser_eq_some_iff, and_assoc,
    decide_eq_true_eq]

/-! ## The session service, line by line -/

theorem yields_invalidate {post : Except AuthError Unit → MemoryFleet n → Prop}
    (next : ∀ f', f'.wall = f.wall → f'.origin = f.origin → post (.ok ()) f') :
    Yields i (Sessions.invalidate user) post f := by
  rw [Sessions.invalidate, yields_bind, yields_cache]
  exact next _ rfl rfl

/-- Caching a session never fails and leaves the record alone. -/
theorem yields_keep (s : Session) {post : Except AuthError Unit → MemoryFleet n → Prop}
    (next : ∀ f', f'.wall = f.wall → f'.origin = f.origin → post (.ok ()) f') :
    Yields i (Sessions.keep s) post f := by
  rw [Sessions.keep, yields_bind, yields_now]
  dsimp only
  split
  · rw [yields_bind, yields_cache]
    exact next _ rfl rfl
  · exact yields_invalidate next

theorem yields_load (ended : Bool) {post : Except AuthError Session → MemoryFleet n → Prop}
    (next : ∀ f', f'.wall = f.wall → f'.origin.sessions.rows = f.origin.sessions.rows →
      post (f.recordedOr user (if ended then .sessionExpired else .sessionNotFound)) f') :
    Yields i (Sessions.load user ended) post f := by
  unfold recordedOr at next
  rw [Sessions.load, yields_bind, yields_now]
  dsimp only
  rw [yields_bind, yields_session, SessionStore.perform]
  dsimp only
  cases hfound : f.origin.sessions.findByUser user f.wall with
  | none =>
    rw [hfound] at next
    exact next _ rfl rfl
  | some s =>
    rw [hfound] at next
    dsimp only
    rw [yields_bind]
    refine yields_keep s fun f' hwall horigin => next f' hwall ?_
    rw [horigin]
    rfl

theorem yields_get {post : Except AuthError Session → MemoryFleet n → Prop}
    (next : ∀ f', f'.wall = f.wall → f'.origin.sessions.rows = f.origin.sessions.rows →
      post (f.sessionOf i user) f') :
    Yields i (Sessions.get user) post f := by
  unfold sessionOf at next
  rw [Sessions.get, yields_bind, yields_fetch]
  dsimp only
  cases hfinds : f.finds i .session (Key.session user) with
  | none =>
    rw [hfinds] at next
    exact yields_load false next
  | some s =>
    rw [hfinds] at next
    dsimp only at next ⊢
    rw [yields_bind, yields_now]
    dsimp only
    rw [answer_wall]
    split
    · next hended =>
      rw [if_pos hended] at next
      rw [yields_bind]
      -- The record is asked after the ended session has been dropped, which leaves it alone.
      refine yields_invalidate fun f' hwall horigin => yields_load true fun f'' hwall' hrows => ?_
      have hrecorded : f'.recordedOr user .sessionExpired = f.recordedOr user .sessionExpired := by
        rw [recordedOr, hwall, horigin]
        rfl
      rw [if_pos rfl, hrecorded]
      exact next f'' (hwall'.trans hwall) (by rw [hrows, horigin]; rfl)
    · next hlive =>
      rw [if_neg hlive] at next
      exact next _ rfl rfl

/-- What a look-up by user answers. -/
theorem execute_session (f : MemoryFleet n) (i : Fin n) (user : UserId) :
    (f.execute i (.session user)).1 = f.sessionOf i user := by
  have hget : Yields i (Sessions.get user) (fun result _ => result = f.sessionOf i user) f :=
    yields_get fun _ _ _ => rfl
  exact hget

/-! ## Holding a token -/

/-- The record finds a user's session by a token exactly if that session holds it. -/
theorem yields_getByToken (hc : f.origin.sessions.Coherent) (user : UserId)
    {post : Except AuthError Session → MemoryFleet n → Prop}
    (found : ∀ s f', (s.user = user ↔ f.recordHolds user token = true) → post (.ok s) f')
    (none : ∀ f', f.recordHolds user token = false → post (.error .sessionNotFound) f') :
    Yields i (Sessions.getByToken token) post f := by
  have hany := hc.any_findByToken user token f.wall
  rw [← recordHolds] at hany
  rw [Sessions.getByToken, yields_bind, yields_now]
  dsimp only
  rw [yields_bind, yields_session, SessionStore.perform]
  dsimp only
  cases hfound : f.origin.sessions.findByToken token f.wall with
  | none =>
    rw [hfound] at hany
    exact none _ hany.symm
  | some s =>
    rw [hfound, Option.any_some] at hany
    exact found s _ (by rw [← hany, decide_eq_true_eq])

/-- A session that a look-up answers holds a token only if cache or record say so, and if it does
not, the cache does not say so. -/
theorem holds_of_sessionOf {s : Session} (h : f.sessionOf i user = .ok s) (token : String) :
    if s.refreshToken = token then (f.cachedHolds i user token || f.recordHolds user token) = true
    else f.cachedHolds i user token = false := by
  unfold cachedHolds
  -- What the record answers is not cached as it is, or has ended there.
  have hrecorded : ∀ e, f.recordedOr user e = .ok s → s.refreshToken = token →
      f.recordHolds user token = true := by
    intro e hs htoken
    rw [recordHolds, recordedOr_eq_ok_iff.1 hs, Option.any_some, decide_eq_true htoken]
  unfold sessionOf at h
  split at h
  · next cached hfinds =>
    rw [hfinds, Option.any_some]
    split at h
    · next hended =>
      rw [hended, Bool.not_true, Bool.false_and, Bool.false_or]
      split
      · next htoken => exact hrecorded _ h htoken
      · rfl
    · next hlive =>
      obtain rfl := Except.ok.inj h
      rw [Bool.not_eq_true] at hlive
      rw [hlive, Bool.not_false, Bool.true_and]
      split
      · next htoken => rw [decide_eq_true htoken, Bool.true_or]
      · next htoken => rw [decide_eq_false htoken]
  · next hfinds =>
    rw [hfinds, Option.any_none, Bool.false_or]
    split
    · next htoken => exact hrecorded _ h htoken
    · rfl

/-- Where a look-up finds no session, neither cache nor record hold the token. -/
theorem not_holds_of_sessionOf {e : AuthError} (h : f.sessionOf i user = .error e)
    (token : String) :
    (e = .sessionNotFound ∨ e = .sessionExpired) ∧
      (f.cachedHolds i user token || f.recordHolds user token) = false := by
  have hrecorded : ∀ e', f.recordedOr user e' = .error e →
      e = e' ∧ f.recordHolds user token = false := by
    intro e' hs
    obtain ⟨rfl, hnone⟩ := recordedOr_eq_error_iff.1 hs
    rw [recordHolds, hnone, Option.any_none]
    exact ⟨rfl, rfl⟩
  unfold sessionOf at h
  unfold cachedHolds
  split at h
  · next cached hfinds =>
    split at h
    · next hended =>
      obtain ⟨rfl, hnone⟩ := hrecorded _ h
      rw [hfinds, Option.any_some, hended, hnone]
      exact ⟨Or.inr rfl, rfl⟩
    · cases h
  · next hfinds =>
    obtain ⟨rfl, hnone⟩ := hrecorded _ h
    rw [hfinds, Option.any_none, hnone]
    exact ⟨Or.inl rfl, rfl⟩

/-- Whether a user's session holds a token is answered with yes if the cached session says so and
has not ended, or else if the record says so. -/
theorem execute_holdsToken (hc : f.origin.sessions.Coherent) (i : Fin n) (user : UserId)
    (token : String) :
    (f.execute i (.holdsToken user token)).1 =
      .ok (f.cachedHolds i user token || f.recordHolds user token) := by
  have hyields : Yields i (Auth.holdsToken user token) (fun result _ =>
      result = .ok (f.cachedHolds i user token || f.recordHolds user token)) f := by
    rw [Auth.holdsToken, yields_bind, yields_attempt]
    refine yields_get fun f' hwall hrows => ?_
    dsimp only
    cases hsession : f.sessionOf i user with
    | error e =>
      obtain ⟨rfl | rfl, hnone⟩ := not_holds_of_sessionOf hsession token
      · rw [hnone]
        exact rfl
      · rw [hnone]
        exact rfl
    | ok s =>
      have hholds := holds_of_sessionOf hsession token
      dsimp only
      split
      · next htoken =>
        rw [if_pos htoken] at hholds
        rw [hholds]
        exact rfl
      · next htoken =>
        -- The cached session holds another token, so the record decides.
        rw [if_neg htoken] at hholds
        rw [hholds, Bool.false_or, yields_bind, yields_attempt]
        have hc' : f'.origin.sessions.Coherent := hc.of_rows fun _ _ hrow => hrows ▸ hrow
        have hrecord : f'.recordHolds user token = f.recordHolds user token := by
          simp only [recordHolds, SessionStore.findByUser, hwall, hrows]
        refine yields_getByToken hc' user (fun found f'' huser => ?_) fun f'' hnone => ?_
        · rw [hrecord] at huser
          refine congrArg Except.ok ?_
          rw [Bool.eq_iff_iff, decide_eq_true_eq, huser]
        · rw [hrecord] at hnone
          rw [hnone]
          exact rfl
  exact hyields

/-- Whoever holds the token of a user's session of record is told so, whatever the caches hold and
whether or not the shared cache answers. -/
theorem holdsToken_of_row (hreached : f.origin.sessions.Reached) {row : Session}
    (hrow : f.origin.sessions.rows.get? user = some row) (hlive : f.wall < row.expiresAt)
    (i : Fin n) : (f.execute i (.holdsToken user row.refreshToken)).1 = .ok true := by
  have hrecord : f.recordHolds user row.refreshToken = true :=
    recordHolds_eq_true_iff.2 ⟨row, hrow, hlive, rfl⟩
  rw [execute_holdsToken hreached.coherent, hrecord, Bool.or_true]

open Demo

/-- The demo fleet with a session on record, another user's session cached at an instance in its
place, and a shared cache that is offline. -/
def misled (i : Fin 2) : MemoryFleet 2 :=
  let sessions := (SessionStore.empty.perform
    (.upsert demoUser demoSession.refreshToken demoSession.expiresAt .epoch)).2
  let other := Envelope.encode .session { demoSession with user := ⟨7⟩, refreshToken := "old" }
  { demo with
    origin := { demo.origin with sessions }
    shared := { demo.shared with offline := true } }.modifyInstance i fun x =>
      { x with cache := { x.cache with
          near := x.cache.near.set ⟨0⟩ (Key.session demoUser) other (.ofSeconds 60) } }

/-- The demo user is told to hold the session's token although another user's session is cached. -/
theorem holdsToken_of_row_misled :
    ((misled 0).finds 0 .session (Key.session demoUser)).map Session.user = some ⟨7⟩ ∧
      ((misled 0).execute 0 (.holdsToken demoUser "new")).1 = .ok true := by
  refine ⟨?_, ?_⟩
  · have hseen : ((misled 0).cache 0).near.lookup (misled 0).clock (Key.session demoUser) =
        some (Envelope.encode .session
          { demoSession with user := ⟨7⟩, refreshToken := "old" }) := by
      show (LocalCache.set _ _ _ _ _).lookup _ _ = _
      rw [LocalCache.lookup_set, if_pos rfl, if_pos (by decide)]
    rw [finds, TieredCache.seen, hseen]
    dsimp only
    rw [Option.bind_some, Envelope.decode_encode]
    rfl
  · have hreached : (misled 0).origin.sessions.Reached := .perform .empty _
    have hrow : (misled 0).origin.sessions.rows.get? demoUser = some demoSession := by decide
    exact holdsToken_of_row hreached hrow (by decide) 0

end Fleet

end Bearer
