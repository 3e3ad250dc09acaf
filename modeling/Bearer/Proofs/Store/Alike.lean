/-
  Stores that differ only in what has elapsed.

  A row that has ended is as good as none: look-ups pass it over, and writing a
  row in its place gives what a new row would, up to the number of a session and
  the time at which a revocation was first written.  So two stores that agree on
  the rows that have not ended go on agreeing, whichever of the others are
  purged meanwhile.

  Main statements: `SessionStore.Alike.upsert`, `SessionStore.Alike.updateToken`,
  `RevocationStore.Alike.insert`, `RevocationStore.Alike.insertCutoff`, and
  `Alike.live` and `Alike.later` for each of the two stores.
-/
import Bearer.Proofs.Store.Revocation
import Bearer.Proofs.Store.Session

namespace Bearer

/-- A session without its number. -/
def Session.unnumbered (s : Session) : Session := { s with id := 0 }

/-- A revocation without the time at which it was first written. -/
def Revocation.undated (r : Revocation) : Revocation := { r with createdAt := .epoch }

theorem Session.eq_of_unnumbered {s s' : Session} (h : s.unnumbered = s'.unnumbered) :
    s.user = s'.user ∧ s.refreshToken = s'.refreshToken ∧ s.expiresAt = s'.expiresAt := by
  obtain ⟨-, huser, htoken, hexpires, -⟩ := Session.mk.inj h
  exact ⟨huser, htoken, hexpires⟩

theorem Revocation.eq_of_undated {r r' : Revocation} (h : r.undated = r'.undated) :
    r.tokenId = r'.tokenId ∧ r.expiresAt = r'.expiresAt := by
  obtain ⟨hid, hexpires, -⟩ := Revocation.mk.inj h
  exact ⟨hid, hexpires⟩

/-- Of two options that have something alike, both are empty or neither is. -/
theorem none_or_some {α β : Type} {part : α → β} {a a' : Option α} (h : a.map part = a'.map part) :
    (a = none ∧ a' = none) ∨ ∃ x y, a = some x ∧ a' = some y ∧ part x = part y := by
  cases a with
  | none => cases a' with
    | none => exact Or.inl ⟨rfl, rfl⟩
    | some y => cases h
  | some x => cases a' with
    | none => cases h
    | some y => exact Or.inr ⟨x, y, rfl, rfl, Option.some.inj h⟩

/-- What two options have alike, they have alike after leaving out what does not satisfy a property
that does not tell the difference. -/
theorem map_filter_eq {α β : Type} {part : α → β} {a a' : Option α}
    (h : a.map part = a'.map part) {p : α → Bool}
    (hp : ∀ x y, part x = part y → p x = p y) :
    (a.filter p).map part = (a'.filter p).map part := by
  obtain ⟨rfl, rfl⟩ | ⟨x, y, rfl, rfl, hpart⟩ := none_or_some h
  · rfl
  · rw [Option.filter_some, Option.filter_some, hp x y hpart]
    split
    · exact h
    · rfl

/-! ## Sessions -/

namespace SessionStore

variable {s s' : SessionStore} {now soon : Instant} {user : UserId} {token : String}

/-- Whether two stores have the same sessions that have not ended, up to their numbers. -/
structure Alike (now : Instant) (s s' : SessionStore) : Prop where
  coherent : s.Coherent
  coherent' : s'.Coherent
  found : ∀ user, (s.findByUser user now).map Session.unnumbered =
    (s'.findByUser user now).map Session.unnumbered

theorem Alike.symm (h : Alike now s s') : Alike now s' s :=
  ⟨h.coherent', h.coherent, fun user => (h.found user).symm⟩

theorem findByUser_later (s : SessionStore) (hle : now ≤ soon) (user : UserId) :
    s.findByUser user soon = (s.findByUser user now).filter fun row => !row.expired soon := by
  unfold findByUser
  cases s.rows.get? user with
  | none => rfl
  | some row =>
    cases hnow : row.expired now with
    | true => simp [Option.filter, hnow, row.expired_mono hnow hle]
    | false => simp [Option.filter, hnow]

theorem Alike.later (h : Alike now s s') (hle : now ≤ soon) : Alike soon s s' := by
  refine ⟨h.coherent, h.coherent', fun user => ?_⟩
  rw [s.findByUser_later hle, s'.findByUser_later hle]
  refine map_filter_eq (h.found user) fun row row' hrow => ?_
  unfold Session.expired
  rw [(Session.eq_of_unnumbered hrow).2.2]

/-- A purge does not show. -/
theorem Alike.live (h : Alike now s s') : Alike now s (s'.live now) := by
  refine ⟨h.coherent, h.coherent'.perform (.deleteExpired now), fun user => ?_⟩
  rw [h.found, findByUser, findByUser, get?_live, findByUser]
  cases s'.rows.get? user with
  | none => rfl
  | some row => cases hrow : row.expired now <;> simp [Option.filter, hrow]

/-- Counting look-ups does not show. -/
theorem Alike.looked_up (h : Alike now s s') :
    Alike now { s with reads := s.reads + 1 } { s' with reads := s'.reads + 1 } :=
  ⟨⟨h.coherent.keyed, h.coherent.distinct⟩, ⟨h.coherent'.keyed, h.coherent'.distinct⟩, h.found⟩

theorem Alike.findByToken (h : Alike now s s') (token : String) :
    (s.findByToken token now).map Session.unnumbered =
      (s'.findByToken token now).map Session.unnumbered := by
  -- The row found is its user's, so the other store has one alike, which holds the token.
  have hone : ∀ {s s' : SessionStore}, Alike now s s' → ∀ {row},
      s.findByToken token now = some row →
      (s'.findByToken token now).map Session.unnumbered = some row.unnumbered := by
    intro s s' h row hrow
    obtain ⟨hfound, hheld⟩ := h.coherent.findByToken_eq_some_iff.1 hrow
    have hother := h.found row.user
    rw [hfound] at hother
    obtain ⟨row', hfound', hsame⟩ := Option.map_eq_some_iff.1 hother.symm
    obtain ⟨huser, htoken, -⟩ := Session.eq_of_unnumbered hsame
    have hrow' : s'.findByToken token now = some row' :=
      h.coherent'.findByToken_eq_some_iff.2 ⟨huser ▸ hfound', htoken.trans hheld⟩
    rw [hrow', Option.map_some, hsame]
  cases hrow : s.findByToken token now with
  | some row => rw [hone h hrow, Option.map_some]
  | none =>
    cases hrow' : s'.findByToken token now with
    | none => rfl
    | some row' =>
      have hback := hone h.symm hrow'
      rw [hrow] at hback
      cases hback

theorem findByUser_insert (s : SessionStore) (row : Session) (other : UserId) (now : Instant) :
    findByUser { s with rows := s.rows.insert user row } other now =
      if other = user then (some row).filter fun r => !r.expired now
      else s.findByUser other now := by
  unfold findByUser
  rw [Table.get?_insert]
  split <;> rfl

/-- Writing rows that are alike keeps stores alike. -/
theorem Alike.insert (h : Alike now s s') (user : UserId) (row row' : Session)
    (hsame : row.unnumbered = row'.unnumbered) (huser : row.user = user)
    (hfree : s.takenByOther user row.refreshToken = false)
    (hfree' : s'.takenByOther user row.refreshToken = false) {t t' : SessionStore}
    (hrows : t.rows = s.rows.insert user row) (hrows' : t'.rows = s'.rows.insert user row') :
    Alike now t t' := by
  obtain ⟨hkey, htoken, hexpires⟩ := Session.eq_of_unnumbered hsame
  refine ⟨h.coherent.insert row (by simp [hfree]) huser hrows,
    h.coherent'.insert row' (by simp [← htoken, hfree']) (hkey ▸ huser) hrows', fun other => ?_⟩
  have hfound : ∀ {t s : SessionStore} {row : Session}, t.rows = s.rows.insert user row →
      t.findByUser other now = if other = user then (some row).filter fun r => !r.expired now
        else s.findByUser other now := by
    intro t s row hrows
    rw [← findByUser_insert, findByUser, findByUser, hrows]
  rw [hfound hrows, hfound hrows']
  split
  · have hboth : (some row).map Session.unnumbered = (some row').map Session.unnumbered :=
      congrArg some hsame
    refine map_filter_eq hboth fun r r' hr => ?_
    unfold Session.expired
    rw [(Session.eq_of_unnumbered hr).2.2]
  · exact h.found other

/-- An upsert writes the same row whether it finds an old one or not, up to its number. -/
theorem Coherent.upsert_eq (h : s.Coherent) (user : UserId) (token : String)
    (expiresAt createdAt : Instant) :
    ∃ id, (s.upsert user token expiresAt createdAt).1 = ⟨id, user, token, expiresAt, createdAt⟩ ∧
      (s.upsert user token expiresAt createdAt).2.rows =
        s.rows.insert user ⟨id, user, token, expiresAt, createdAt⟩ := by
  unfold SessionStore.upsert
  cases hold : s.rows.get? user with
  | none => exact ⟨_, rfl, rfl⟩
  | some old =>
    obtain rfl := h.keyed user old hold
    exact ⟨old.id, rfl, rfl⟩

/-- An upsert of a token that no other user's row holds answers rows that are alike. -/
theorem Alike.upsert (h : Alike now s s') (hfree : s.takenByOther user token = false)
    (hfree' : s'.takenByOther user token = false) (expiresAt createdAt : Instant) :
    ∃ row row', (s.perform (.upsert user token expiresAt createdAt)).1 = .ok row ∧
      (s'.perform (.upsert user token expiresAt createdAt)).1 = .ok row' ∧
      row.unnumbered = row'.unnumbered ∧ row.user = user ∧
      Alike now (s.perform (.upsert user token expiresAt createdAt)).2
        (s'.perform (.upsert user token expiresAt createdAt)).2 := by
  obtain ⟨id, hrow, hrows⟩ := h.coherent.upsert_eq user token expiresAt createdAt
  obtain ⟨id', hrow', hrows'⟩ := h.coherent'.upsert_eq user token expiresAt createdAt
  simp only [perform, hfree, hfree', Bool.false_eq_true, if_false]
  refine ⟨_, _, rfl, rfl, ?_, ?_, h.insert user ⟨id, user, token, expiresAt, createdAt⟩
    ⟨id', user, token, expiresAt, createdAt⟩ rfl rfl hfree hfree' hrows hrows'⟩
  · rw [hrow, hrow']
    rfl
  · rw [hrow]

/-- An update of a session that has not ended and holds the expected token succeeds in both. -/
theorem Alike.updateToken (h : Alike now s s') {row : Session}
    (hrow : s.findByUser user now = some row) (hfree : s.takenByOther user token = false)
    (hfree' : s'.takenByOther user token = false) (expiresAt : Instant) :
    let c := SessionCall.updateToken user (some row.refreshToken) token expiresAt
    (s.perform c).1 = .ok true ∧ (s'.perform c).1 = .ok true ∧
      Alike now (s.perform c).2 (s'.perform c).2 := by
  have hother := h.found user
  rw [hrow] at hother
  obtain ⟨row', hrow', hsame⟩ := Option.map_eq_some_iff.1 hother.symm
  obtain ⟨huser, htoken, -⟩ := Session.eq_of_unnumbered hsame
  have hget := (findByUser_eq_some_iff.1 hrow).1
  have hget' := (findByUser_eq_some_iff.1 hrow').1
  have hdone : ∀ {s : SessionStore} {old : Session}, s.takenByOther user token = false →
      s.rows.get? user = some old → old.refreshToken = row.refreshToken →
      s.perform (.updateToken user (some row.refreshToken) token expiresAt) =
        (.ok true, { s with
          rows := s.rows.insert user { old with refreshToken := token, expiresAt } }) := by
    intro s old hfree hget hheld
    simp only [perform, hfree, Bool.false_eq_true, if_false, SessionStore.updateToken, hget, hheld,
      Option.all_some, decide_true, if_true]
  dsimp only
  rw [hdone hfree hget rfl, hdone hfree' hget' htoken]
  refine ⟨rfl, rfl, h.insert user { row with refreshToken := token, expiresAt }
    { row' with refreshToken := token, expiresAt } ?_ (h.coherent.keyed user row hget) hfree hfree'
    rfl rfl⟩
  obtain ⟨-, hu, -, -, hc⟩ := Session.mk.inj hsame
  simp only [Session.unnumbered, hu, hc]

/-- Removing a user's row keeps stores alike, whether it has ended or not. -/
theorem Alike.delete (h : Alike now s s') (user : UserId) :
    Alike now (s.perform (.deleteByUser user)).2 (s'.perform (.deleteByUser user)).2 := by
  refine ⟨h.coherent.perform _, h.coherent'.perform _, fun other => ?_⟩
  have hfound : ∀ s : SessionStore, (s.perform (.deleteByUser user)).2.findByUser other now =
      if other = user then none else s.findByUser other now := by
    intro s
    unfold findByUser
    simp only [perform, Table.get?_erase]
    split <;> rfl
  rw [hfound, hfound]
  split
  · rfl
  · exact h.found other

end SessionStore

/-! ## Revocations -/

namespace RevocationStore

variable {s s' : RevocationStore} {now soon t expiresAt : Instant} {user : UserId}
variable {tokenId : String}

/-- The cutoff of a user, if it has not elapsed. -/
def activeCutoff (s : RevocationStore) (user : UserId) (now : Instant) : Option CutoffRow :=
  (s.cutoffs.get? user).filter fun row => now < row.expiresAt

/-- Whether every cutoff lies in the past. -/
def Past (s : RevocationStore) (now : Instant) : Prop :=
  ∀ user row, s.cutoffs.get? user = some row → row.revokedBefore ≤ now

/-- Whether two stores have the same revocations that have not elapsed, up to the times at which
they were first written. -/
structure Alike (now : Instant) (s s' : RevocationStore) : Prop where
  keyed : s.Keyed
  keyed' : s'.Keyed
  past : s.Past now
  past' : s'.Past now
  active : ∀ tokenId, (s.findActive tokenId now).map Revocation.undated =
    (s'.findActive tokenId now).map Revocation.undated
  cutoff : ∀ user, s.activeCutoff user now = s'.activeCutoff user now

theorem Past.later (h : s.Past now) (hle : now ≤ soon) : s.Past soon :=
  fun user row hrow => Instant.le_trans (h user row hrow) hle

theorem filter_later {α : Type} (found : Option α) (expiry : α → Instant) (hle : now ≤ soon) :
    (found.filter fun row => soon < expiry row) =
      (found.filter fun row => now < expiry row).filter fun row => soon < expiry row := by
  cases found with
  | none => rfl
  | some row =>
    by_cases hsoon : soon < expiry row
    · simp [Option.filter, hsoon, Instant.lt_of_le_of_lt hle hsoon]
    · by_cases hnow : now < expiry row <;> simp [Option.filter, hsoon, hnow]

theorem findActive_later (s : RevocationStore) (hle : now ≤ soon) (tokenId : String) :
    s.findActive tokenId soon = (s.findActive tokenId now).filter fun row => row.active soon :=
  filter_later _ Revocation.expiresAt hle

theorem activeCutoff_later (s : RevocationStore) (hle : now ≤ soon) (user : UserId) :
    s.activeCutoff user soon =
      (s.activeCutoff user now).filter fun row => soon < row.expiresAt :=
  filter_later _ CutoffRow.expiresAt hle

theorem Alike.later (h : Alike now s s') (hle : now ≤ soon) : Alike soon s s' where
  keyed := h.keyed
  keyed' := h.keyed'
  past := h.past.later hle
  past' := h.past'.later hle
  active tokenId := by
    rw [s.findActive_later hle, s'.findActive_later hle]
    refine map_filter_eq (h.active tokenId) fun r r' hr => ?_
    unfold Revocation.active
    rw [(Revocation.eq_of_undated hr).2]
  cutoff user := by
    rw [s.activeCutoff_later hle, s'.activeCutoff_later hle, h.cutoff]

/-- A purge does not show. -/
theorem Alike.live (h : Alike now s s') : Alike now s (s'.live now) where
  keyed := h.keyed
  keyed' := keyed_perform h.keyed' now (.deleteExpired now)
  past := h.past
  past' user row hrow := h.past' user row (cutoff_of_live hrow)
  active tokenId := by
    rw [h.active, findActive, findActive, RevocationStore.live, Table.get?_filter]
    cases s'.rows.get? tokenId with
    | none => rfl
    | some row => cases hrow : row.active now <;> simp [Option.filter, hrow]
  cutoff user := by
    rw [h.cutoff, activeCutoff, activeCutoff, RevocationStore.live, Table.get?_filter]
    cases s'.cutoffs.get? user with
    | none => rfl
    | some row => by_cases hrow : now < row.expiresAt <;> simp [Option.filter, hrow]

/-- Counting look-ups does not show. -/
theorem Alike.looked_up (h : Alike now s s') :
    Alike now { s with reads := s.reads + 1 } { s' with reads := s'.reads + 1 } :=
  ⟨h.keyed, h.keyed', h.past, h.past', h.active, h.cutoff⟩

/-- The later of two expiries of which one has passed. -/
theorem max_of_elapsed {old : Instant} (hold : ¬ now < old) (expiresAt : Instant) :
    (now < max old expiresAt ↔ now < expiresAt) ∧
      (now < expiresAt → max old expiresAt = expiresAt) := by
  rw [Instant.not_lt] at hold
  show (now < (if old ≤ expiresAt then expiresAt else old) ↔ now < expiresAt) ∧
    (now < expiresAt → (if old ≤ expiresAt then expiresAt else old) = expiresAt)
  split
  · exact ⟨Iff.rfl, fun _ => rfl⟩
  · next hlater =>
    rw [Instant.not_le] at hlater
    have hpassed : ¬ now < expiresAt :=
      Instant.not_lt.2 (Instant.le_trans (Instant.le_of_lt hlater) hold)
    exact ⟨iff_of_false (Instant.not_lt.2 hold) hpassed, fun hnow => absurd hnow hpassed⟩

/-- Writing the row of a token depends only on whether there is one that has not elapsed. -/
theorem Keyed.findActive_insert (h : s.Keyed) (t : Instant) (tokenId other : String)
    (expiresAt now : Instant) :
    ((s.insert t tokenId expiresAt).findActive other now).map Revocation.undated =
      if other = tokenId then
        match (s.findActive tokenId now).map Revocation.undated with
        | some old => some { old with expiresAt := max old.expiresAt expiresAt }
        | none => if now < expiresAt then some ⟨tokenId, expiresAt, .epoch⟩ else none
      else (s.findActive other now).map Revocation.undated := by
  unfold findActive RevocationStore.insert
  rw [Table.get?_insert]
  by_cases hother : other = tokenId
  · rw [if_pos hother, if_pos hother]
    cases hold : s.rows.get? tokenId with
    | none =>
      by_cases hnow : now < expiresAt <;>
        simp [Option.filter, Revocation.active, Revocation.undated, hnow]
    | some old =>
      obtain rfl := h tokenId old hold
      by_cases hactive : now < old.expiresAt
      · have hmax : now < max old.expiresAt expiresAt :=
          Instant.lt_of_lt_of_le hactive (Instant.le_max_left ..)
        simp [Option.filter, Revocation.active, Revocation.undated, hactive, hmax]
      · obtain ⟨hiff, heq⟩ := max_of_elapsed hactive expiresAt
        by_cases hnow : now < expiresAt
        · simp [Option.filter, Revocation.active, Revocation.undated, hactive, hnow, heq hnow]
        · have hmax : ¬ now < max old.expiresAt expiresAt := fun hlt => hnow (hiff.1 hlt)
          simp [Option.filter, Revocation.active, hactive, hnow, hmax]
  · rw [if_neg hother, if_neg hother]

theorem Alike.insert (h : Alike now s s') (tokenId : String) (expiresAt : Instant) :
    Alike now (s.insert now tokenId expiresAt) (s'.insert now tokenId expiresAt) where
  keyed := keyed_perform h.keyed now (.insert tokenId expiresAt)
  keyed' := keyed_perform h.keyed' now (.insert tokenId expiresAt)
  past := h.past
  past' := h.past'
  active other := by
    rw [h.keyed.findActive_insert, h.keyed'.findActive_insert, h.active, h.active]
  cutoff := h.cutoff

theorem Past.insertCutoff (h : s.Past now) (user : UserId) (expiresAt : Instant) :
    (s.insertCutoff user ⟨now, expiresAt⟩).Past now := by
  intro other row hrow
  rw [get?_insertCutoff] at hrow
  split at hrow
  · obtain rfl := Option.some.inj hrow
    cases hold : s.cutoffs.get? user with
    | none => exact Instant.le_refl now
    | some old => exact Instant.max_le (h user old hold) (Instant.le_refl now)
  · exact h other row hrow

/-- Taking a cutoff now depends only on whether there is one that has not elapsed. -/
theorem Past.activeCutoff_insertCutoff (h : s.Past now) (user other : UserId)
    (expiresAt : Instant) :
    (s.insertCutoff user ⟨now, expiresAt⟩).activeCutoff other now =
      if other = user then
        match s.activeCutoff user now with
        | some old => some ⟨now, max old.expiresAt expiresAt⟩
        | none => if now < expiresAt then some ⟨now, expiresAt⟩ else none
      else s.activeCutoff other now := by
  unfold activeCutoff
  rw [get?_insertCutoff]
  by_cases hother : other = user
  · rw [if_pos hother, if_pos hother]
    cases hold : s.cutoffs.get? user with
    | none => by_cases hnow : now < expiresAt <;> simp [Option.filter, hnow]
    | some old =>
      have hlatest : max old.revokedBefore now = now := by
        show (if old.revokedBefore ≤ now then now else old.revokedBefore) = now
        rw [if_pos (h user old hold)]
      by_cases hactive : now < old.expiresAt
      · have hmax : now < max old.expiresAt expiresAt :=
          Instant.lt_of_lt_of_le hactive (Instant.le_max_left ..)
        simp [Option.filter, CutoffRow.merge, hactive, hmax, hlatest]
      · obtain ⟨hiff, heq⟩ := max_of_elapsed hactive expiresAt
        by_cases hnow : now < expiresAt
        · simp [Option.filter, CutoffRow.merge, hactive, hnow, heq hnow, hlatest]
        · have hmax : ¬ now < max old.expiresAt expiresAt := fun hlt => hnow (hiff.1 hlt)
          simp [Option.filter, CutoffRow.merge, hactive, hnow, hmax]
  · rw [if_neg hother, if_neg hother]

theorem Alike.insertCutoff (h : Alike now s s') (user : UserId) (expiresAt : Instant) :
    Alike now (s.insertCutoff user ⟨now, expiresAt⟩)
      (s'.insertCutoff user ⟨now, expiresAt⟩) where
  keyed := h.keyed
  keyed' := h.keyed'
  past := h.past.insertCutoff user expiresAt
  past' := h.past'.insertCutoff user expiresAt
  active := h.active
  cutoff other := by
    rw [h.past.activeCutoff_insertCutoff, h.past'.activeCutoff_insertCutoff, h.cutoff, h.cutoff]

end RevocationStore

end Bearer
