/-
  What the sessions of record hold.

  A row holds the token that it has been given last.  A row is only made by an
  upsert; an update writes into a row that is there and holds the token that is
  expected.

  In a store that has come about by calls, every row is kept under its user and
  no two users' rows hold one token, so that a token finds a user's session
  exactly if that session holds it.

  Main statements: `row_of_perform`, `update_cases`, `Reached.coherent` and
  `Coherent.findByToken_eq_some_iff`.
-/
import Bearer.Proofs.Time.Instant
import Bearer.Store.Session

namespace Bearer

/-- The user and the token that a call gives a session. -/
def SessionCall.gift? : SessionCall → Option (UserId × String)
  | .upsert user token _ _ | .updateToken user _ token _ => some (user, token)
  | _ => none

/-- The user whose row a call may write or remove; a purge is of no user's row in particular. -/
def SessionCall.subject? : SessionCall → Option UserId
  | .upsert user .. | .updateToken user .. | .deleteByUser user => some user
  | _ => none

/-- A session that has ended stays so. -/
theorem Session.expired_mono {s : Session} {now later : Instant} (h : s.expired now = true)
    (hle : now ≤ later) : s.expired later = true :=
  decide_eq_true (Instant.le_trans (of_decide_eq_true h) hle)

namespace SessionStore

variable {s : SessionStore} {user other : UserId} {token old : String} {expiresAt : Instant}
variable {row : Session}

/-- A row after another one has been written is as it was, or the one written. -/
theorem row_of_insert {rows : Table UserId Session} {written : Session}
    (h : (rows.insert other written).get? user = some row) :
    rows.get? user = some row ∨ user = other ∧ row = written := by
  rw [Table.get?_insert] at h
  split at h
  · next heq => exact Or.inr ⟨heq, (Option.some.inj h).symm⟩
  · exact Or.inl h

/-- A purge leaves the rows that a look-up at its time would find. -/
theorem get?_live (s : SessionStore) (now : Instant) (user : UserId) :
    (s.live now).rows.get? user = s.findByUser user now :=
  Table.get?_filter ..

theorem row_of_live {now : Instant} (h : (s.live now).rows.get? user = some row) :
    s.rows.get? user = some row := by
  rw [get?_live, findByUser, Option.filter_eq_some_iff] at h
  exact h.1

/-- A row is as it was, or has just been given its token. -/
theorem row_of_perform {c : SessionCall} (h : (s.perform c).2.rows.get? user = some row) :
    s.rows.get? user = some row ∨ c.gift? = some (user, row.refreshToken) := by
  cases c with
  | upsert owner token expiresAt createdAt =>
    simp only [perform] at h
    split at h
    · exact Or.inl h
    · unfold upsert at h
      split at h
      all_goals
        rcases row_of_insert h with hsame | ⟨rfl, rfl⟩
        · exact Or.inl hsame
        · exact Or.inr rfl
  | updateToken owner expected token expiresAt =>
    simp only [perform] at h
    split at h
    · exact Or.inl h
    · unfold updateToken at h
      split at h
      · split at h
        · rcases row_of_insert h with hsame | ⟨rfl, rfl⟩
          · exact Or.inl hsame
          · exact Or.inr rfl
        · exact Or.inl h
      · exact Or.inl h
  | deleteByUser owner =>
    simp only [perform, Table.get?_erase] at h
    split at h
    · cases h
    · exact Or.inl h
  | deleteExpired time => exact Or.inl (row_of_live h)
  | findByUser owner time => exact Or.inl h
  | findByToken wanted time => exact Or.inl h

/-- A token is taken if another user's row holds it. -/
theorem takenByOther_iff : s.takenByOther user token = true ↔
    ∃ other row, s.rows.get? other = some row ∧ other ≠ user ∧ row.refreshToken = token := by
  rw [takenByOther, Table.any, List.any_eq_true]
  constructor
  · rintro ⟨⟨other, row⟩, hmem, hholds⟩
    obtain ⟨hne, hheld⟩ : other ≠ user ∧ row.refreshToken = token := by simpa using hholds
    exact ⟨other, row, (Table.mem_entries_iff ..).1 hmem, hne, hheld⟩
  · rintro ⟨other, row, hrow, hne, hheld⟩
    exact ⟨(other, row), (Table.mem_entries_iff ..).2 hrow, by simp [hne, hheld]⟩

/-- An update writes into the user's row, which holds the token that is expected, or changes
nothing. -/
theorem update_cases (s : SessionStore) (user : UserId) (expected : Option String)
    (token : String) (expiresAt : Instant) :
    (∃ row, s.rows.get? user = some row ∧ (∀ old ∈ expected, row.refreshToken = old) ∧
      (s.perform (.updateToken user expected token expiresAt)).1 = .ok true ∧
      (s.perform (.updateToken user expected token expiresAt)).2.rows =
        s.rows.insert user { row with refreshToken := token, expiresAt }) ∨
    (s.perform (.updateToken user expected token expiresAt)).1 ≠ .ok true ∧
      (s.perform (.updateToken user expected token expiresAt)).2 = s := by
  simp only [perform]
  split
  · exact Or.inr ⟨by simp, rfl⟩
  · unfold updateToken
    cases hrow : s.rows.get? user with
    | none => exact Or.inr ⟨by simp, rfl⟩
    | some row =>
      dsimp only
      split
      · next hexpected =>
        refine Or.inl ⟨row, rfl, ?_, rfl, rfl⟩
        rintro old rfl
        simpa [eq_comm] using hexpected
      · exact Or.inr ⟨by simp, rfl⟩

/-- An update that does not succeed changes nothing. -/
theorem perform_of_not_updated {expected : Option String}
    (h : (s.perform (.updateToken user expected token expiresAt)).1 ≠ .ok true) :
    (s.perform (.updateToken user expected token expiresAt)).2 = s := by
  rcases s.update_cases user expected token expiresAt with ⟨row, -, -, hdone, -⟩ | ⟨-, hsame⟩
  · exact absurd hdone h
  · exact hsame

/-- An update makes no row. -/
theorem update_created (s : SessionStore) (user : UserId) (expected : Option String)
    (token : String) (expiresAt : Instant) :
    (s.perform (.updateToken user expected token expiresAt)).2.created = s.created := by
  simp only [perform]
  split
  · rfl
  · unfold updateToken
    split
    · split
      · rfl
      · rfl
    · rfl

/-- An update of a row that holds the expected token is done, if it is not refused. -/
theorem updated_of_held (hrow : s.rows.get? user = some row) {written : Bool}
    (hreply : (s.perform (.updateToken user (some row.refreshToken) token expiresAt)).1 =
      .ok written) : written = true := by
  simp only [perform] at hreply
  split at hreply
  · cases hreply
  · rw [updateToken, hrow] at hreply
    simpa using hreply.symm

/-- It is refused only if another user's row holds the new token. -/
theorem update_ne_error (hfree : ∀ other row, s.rows.get? other = some row → other ≠ user →
    row.refreshToken ≠ token) {expected : Option String} {e : AuthError} :
    (s.perform (.updateToken user expected token expiresAt)).1 ≠ .error e := by
  simp only [perform]
  split
  · next htaken =>
    obtain ⟨other, row, hrow, hne, htoken⟩ := takenByOther_iff.1 htaken
    exact absurd htoken (hfree other row hrow hne)
  · nofun

/-! ## What a call leaves alone -/

/-- An update writes no other user's row. -/
theorem get?_update_of_ne (hne : other ≠ user) (expected : Option String) :
    (s.perform (.updateToken user expected token expiresAt)).2.rows.get? other =
      s.rows.get? other := by
  rcases s.update_cases user expected token expiresAt with ⟨row, -, -, -, hrows⟩ | ⟨-, hsame⟩
  · rw [hrows, Table.get?_insert, if_neg hne]
  · rw [hsame]

/-- A call about another user leaves a user's row as it is, unless it is a purge. -/
theorem get?_perform_of_ne {c : SessionCall} (hne : c.subject? ≠ some user)
    (hkeeps : ∀ now, c ≠ .deleteExpired now) :
    (s.perform c).2.rows.get? user = s.rows.get? user := by
  cases c with
  | upsert owner token expiresAt createdAt =>
    have hother : user ≠ owner := fun heq => hne (heq ▸ rfl)
    simp only [perform]
    split
    · rfl
    · unfold upsert
      split
      all_goals
        dsimp only
        rw [Table.get?_insert, if_neg hother]
  | updateToken owner expected token expiresAt =>
    have hother : user ≠ owner := fun heq => hne (heq ▸ rfl)
    exact get?_update_of_ne hother expected
  | deleteByUser owner =>
    have hother : user ≠ owner := fun heq => hne (heq ▸ rfl)
    simp only [perform]
    rw [Table.get?_erase, if_neg hother]
  | deleteExpired now => exact absurd rfl (hkeeps now)
  | findByUser owner now => rfl
  | findByToken token now => rfl

/-- A row that another user's call or a purge finds is as it was, or had ended by the purge. -/
theorem row_of_perform_of_ne {c : SessionCall} (hne : c.subject? ≠ some user)
    (hrow : s.rows.get? user = some row) :
    (s.perform c).2.rows.get? user = some row ∨
      ∃ now, c = .deleteExpired now ∧ row.expired now = true := by
  by_cases hpurge : ∃ now, c = .deleteExpired now
  · obtain ⟨now, rfl⟩ := hpurge
    cases hended : row.expired now with
    | true => exact Or.inr ⟨now, rfl, hended⟩
    | false =>
      refine Or.inl ?_
      show (s.live now).rows.get? user = some row
      rw [get?_live, findByUser, hrow, Option.filter_some, hended, Bool.not_false, if_pos rfl]
  · have hkeeps := get?_perform_of_ne (s := s) hne fun now heq => hpurge ⟨now, heq⟩
    exact Or.inl (hkeeps.trans hrow)

/-- What an upsert answers is the user's row from then on; one that fails changes nothing. -/
theorem upsert_cases (s : SessionStore) (user : UserId) (token : String)
    (expiresAt createdAt : Instant) :
    (∃ row, (s.perform (.upsert user token expiresAt createdAt)).1 = .ok row ∧
      (s.perform (.upsert user token expiresAt createdAt)).2.rows.get? user = some row) ∨
    (∃ e, (s.perform (.upsert user token expiresAt createdAt)).1 = .error e) ∧
      (s.perform (.upsert user token expiresAt createdAt)).2 = s := by
  simp only [perform]
  split
  · exact Or.inr ⟨⟨_, rfl⟩, rfl⟩
  · unfold upsert
    split
    all_goals exact Or.inl ⟨_, rfl, Table.get?_insert_self ..⟩

/-! ## Stores that calls have made -/

/-- Whether a store has come about by calls, from one without sessions. -/
inductive Reached : SessionStore → Prop where
  | empty : Reached .empty
  | perform {s : SessionStore} (h : Reached s) (c : SessionCall) : Reached (s.perform c).2

/-- Whether every row is kept under its user, and no two users' rows hold one token. -/
structure Coherent (s : SessionStore) : Prop where
  keyed : ∀ user row, s.rows.get? user = some row → row.user = user
  distinct : ∀ user other row row', s.rows.get? user = some row →
    s.rows.get? other = some row' → row.refreshToken = row'.refreshToken → user = other

theorem coherent_empty : empty.Coherent := by
  constructor
  · intro user row h
    cases h
  · intro user other row row' h
    cases h

/-- Losing rows keeps a store coherent. -/
theorem Coherent.of_rows (h : s.Coherent) {s' : SessionStore}
    (hrows : ∀ user row, s'.rows.get? user = some row → s.rows.get? user = some row) :
    s'.Coherent where
  keyed user row hrow := h.keyed user row (hrows user row hrow)
  distinct user other row row' hrow hrow' :=
    h.distinct user other row row' (hrows user row hrow) (hrows other row' hrow')

theorem ne_of_not_takenByOther (hfree : ¬ s.takenByOther user token = true)
    (hrow : s.rows.get? other = some row) (hne : other ≠ user) : row.refreshToken ≠ token :=
  fun htoken => hfree (takenByOther_iff.2 ⟨other, row, hrow, hne, htoken⟩)

/-- Writing a user's row keeps a store coherent, if no other user's row holds the token. -/
theorem Coherent.insert (h : s.Coherent) (written : Session)
    (hfree : ¬ s.takenByOther user written.refreshToken = true) (huser : written.user = user)
    {s' : SessionStore} (hrows : s'.rows = s.rows.insert user written) : s'.Coherent := by
  constructor
  · intro owner row hrow
    rw [hrows] at hrow
    rcases row_of_insert hrow with hold | ⟨rfl, rfl⟩
    · exact h.keyed owner row hold
    · exact huser
  · intro owner other row row' hrow hrow' htoken
    rw [hrows] at hrow hrow'
    -- Two old rows differ already, and an old one does not hold the token that is written.
    rcases row_of_insert hrow with hold | ⟨rfl, rfl⟩
    · rcases row_of_insert hrow' with hold' | ⟨rfl, rfl⟩
      · exact h.distinct owner other row row' hold hold' htoken
      · refine Decidable.byContradiction fun hne => ?_
        exact ne_of_not_takenByOther hfree hold hne htoken
    · rcases row_of_insert hrow' with hold' | ⟨rfl, rfl⟩
      · refine Decidable.byContradiction fun hne => ?_
        exact ne_of_not_takenByOther hfree hold' (Ne.symm hne) htoken.symm
      · rfl

theorem Coherent.perform (h : s.Coherent) (c : SessionCall) : (s.perform c).2.Coherent := by
  cases c with
  | upsert user token expiresAt createdAt =>
    simp only [SessionStore.perform]
    split
    · exact h
    · next hfree =>
      unfold upsert
      split
      · next old hold =>
        exact h.insert { old with refreshToken := token, expiresAt, createdAt } hfree
          (h.keyed user old hold) rfl
      · exact h.insert ⟨_, user, token, expiresAt, createdAt⟩ hfree rfl rfl
  | updateToken user expected token expiresAt =>
    simp only [SessionStore.perform]
    split
    · exact h
    · next hfree =>
      unfold updateToken
      split
      · next row hrow =>
        split
        · exact h.insert { row with refreshToken := token, expiresAt } hfree
            (h.keyed user row hrow) rfl
        · exact h
      · exact h
  | deleteByUser user =>
    refine h.of_rows fun owner row hrow => ?_
    have hget : (s.rows.erase user).get? owner = some row := hrow
    rw [Table.get?_erase] at hget
    split at hget
    · cases hget
    · exact hget
  | deleteExpired now => exact h.of_rows fun _ _ hrow => row_of_live hrow
  | findByUser user now => exact h.of_rows fun _ _ hrow => hrow
  | findByToken token now => exact h.of_rows fun _ _ hrow => hrow

theorem Reached.coherent (h : s.Reached) : s.Coherent := by
  induction h with
  | empty => exact coherent_empty
  | perform _ c ih => exact ih.perform c

/-! ## Looking up -/

theorem findByUser_eq_some_iff {now : Instant} :
    s.findByUser user now = some row ↔ s.rows.get? user = some row ∧ now < row.expiresAt := by
  rw [findByUser, Option.filter_eq_some_iff, Bool.not_eq_true', Session.expired_eq_false_iff]

/-- A token finds the session that holds it, which is the one of its user. -/
theorem Coherent.findByToken_eq_some_iff (h : s.Coherent) {now : Instant} :
    s.findByToken token now = some row ↔
      s.findByUser row.user now = some row ∧ row.refreshToken = token := by
  rw [findByUser_eq_some_iff]
  constructor
  · intro hfound
    obtain ⟨⟨owner, row⟩, hentry, rfl⟩ := Option.map_eq_some_iff.1 hfound
    obtain ⟨hheld, hlive⟩ : row.refreshToken = token ∧ now < row.expiresAt := by
      simpa [Session.expired_eq_false_iff] using List.find?_some hentry
    have hrow : s.rows.get? owner = some row :=
      (Table.mem_entries_iff ..).1 (List.mem_of_find?_eq_some hentry)
    exact ⟨⟨h.keyed owner row hrow ▸ hrow, hlive⟩, hheld⟩
  · rintro ⟨⟨hrow, hlive⟩, rfl⟩
    have hmem : (row.user, row) ∈ s.rows.entries := (Table.mem_entries_iff ..).2 hrow
    -- Something is found, and since it holds the token it is the user's row.
    cases hfound : s.rows.find? fun _ r => r.refreshToken = row.refreshToken && !r.expired now with
    | none =>
      have hnone := List.find?_eq_none.1 hfound _ hmem
      simp [(Session.expired_eq_false_iff ..).2 hlive] at hnone
    | some entry =>
      obtain ⟨owner, found⟩ := entry
      have hheld : found.refreshToken = row.refreshToken ∧ now < found.expiresAt := by
        simpa [Session.expired_eq_false_iff] using List.find?_some hfound
      have hget : s.rows.get? owner = some found :=
        (Table.mem_entries_iff ..).1 (List.mem_of_find?_eq_some hfound)
      obtain rfl : owner = row.user := h.distinct owner row.user found row hget hrow hheld.1
      rw [findByToken, hfound, Option.map_some, Option.some.inj (hget.symm.trans hrow)]

/-- A token finds a user's session exactly if the user's session holds it. -/
theorem Coherent.any_findByToken (h : s.Coherent) (user : UserId) (token : String)
    (now : Instant) :
    (s.findByToken token now).any (fun row => row.user = user) =
      (s.findByUser user now).any fun row => row.refreshToken = token := by
  rw [Bool.eq_iff_iff]
  simp only [Option.any_eq_true, decide_eq_true_eq]
  constructor
  · rintro ⟨row, hfound, rfl⟩
    exact ⟨row, h.findByToken_eq_some_iff.1 hfound⟩
  · rintro ⟨row, hfound, rfl⟩
    obtain rfl := h.keyed user row (findByUser_eq_some_iff.1 hfound).1
    exact ⟨row, h.findByToken_eq_some_iff.2 ⟨hfound, rfl⟩, rfl⟩

end SessionStore

end Bearer
