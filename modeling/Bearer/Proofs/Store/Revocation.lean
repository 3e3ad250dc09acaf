/-
  How long revocations stay on record.

  A row of a token keeps at least the expiry it has, whatever else is written,
  until something later is purged.  The cutoff of a user only ever moves
  forward.

  Main statements: `revokedUntil_perform`, `revokedAtMost_perform`,
  `cutOffUntil_perform` and `cutOffSince_perform`.
-/
import Bearer.Proofs.Time.Instant
import Bearer.Store.Revocation

namespace Bearer.RevocationStore

variable {s : RevocationStore} {now t : Instant} {tokenId : String} {user : UserId}
variable {c : RevocationCall}

/-- A purge leaves no row that was not there. -/
theorem row_of_live {row : Revocation} (h : (s.live t).rows.get? tokenId = some row) :
    s.rows.get? tokenId = some row := by
  rw [live, Table.get?_filter, Option.filter_eq_some_iff] at h
  exact h.1

theorem cutoff_of_live {row : CutoffRow} (h : (s.live t).cutoffs.get? user = some row) :
    s.cutoffs.get? user = some row := by
  rw [live, Table.get?_filter, Option.filter_eq_some_iff] at h
  exact h.1

/-! ## Rows of tokens -/

/-- Whether the record has a revocation of a token that lasts at least until `t`. -/
def RevokedUntil (s : RevocationStore) (tokenId : String) (t : Instant) : Prop :=
  ∃ row, s.rows.get? tokenId = some row ∧ t ≤ row.expiresAt

theorem revokedUntil_insert (s : RevocationStore) (now : Instant) (tokenId : String)
    (t : Instant) : (s.insert now tokenId t).RevokedUntil tokenId t := by
  unfold RevokedUntil insert
  dsimp only
  rw [Table.get?_insert_self]
  refine ⟨_, rfl, ?_⟩
  split
  · exact Instant.le_max_right _ _
  · exact Instant.le_refl _

theorem revokedUntil_insert_of (h : s.RevokedUntil tokenId t) (now : Instant) (other : String)
    (expiresAt : Instant) : (s.insert now other expiresAt).RevokedUntil tokenId t := by
  obtain ⟨row, hrow, hle⟩ := h
  -- Writing the token's own row takes the later of both expiries.
  by_cases hid : tokenId = other
  · subst hid
    unfold RevokedUntil insert
    dsimp only
    rw [Table.get?_insert_self, hrow]
    exact ⟨_, rfl, Instant.le_max (Or.inl hle)⟩
  · refine ⟨row, ?_, hle⟩
    rw [insert, Table.get?_insert, if_neg hid]
    exact hrow

/-- A revocation stays on record as long as nothing is purged that is later than its end. -/
theorem revokedUntil_perform (h : s.RevokedUntil tokenId t)
    (hc : ∀ time, c = .deleteExpired time → time < t) :
    (s.perform now c).2.RevokedUntil tokenId t := by
  cases c with
  | insert other expiresAt => exact revokedUntil_insert_of h now other expiresAt
  | findActive other time => exact h
  | insertCutoff user revokedBefore expiresAt => exact h
  | findCutoff user time => exact h
  | deleteExpired time =>
    obtain ⟨row, hrow, hle⟩ := h
    refine ⟨row, ?_, hle⟩
    have hactive : row.active time = true := by
      simpa [Revocation.active] using Instant.lt_of_lt_of_le (hc time rfl) hle
    show ((s.live time).rows.get? tokenId) = some row
    rw [live, Table.get?_filter, hrow, Option.filter_some, if_pos hactive]

/-- A revocation that lasts is found. -/
theorem findActive_ne_none (h : s.RevokedUntil tokenId t) (hnow : now < t) :
    s.findActive tokenId now ≠ none := by
  obtain ⟨row, hrow, hle⟩ := h
  have hactive : row.active now = true := by
    simpa [Revocation.active] using Instant.lt_of_lt_of_le hnow hle
  rw [findActive, hrow, Option.filter_some, if_pos hactive]
  exact Option.some_ne_none row

/-- A revocation that lasts matters. -/
theorem any_active (h : s.RevokedUntil tokenId t) (hnow : now < t) :
    ((s.rows.get? tokenId).any fun row => row.active now) = true := by
  obtain ⟨row, hrow, hle⟩ := h
  rw [hrow, Option.any_some, Revocation.active, decide_eq_true_eq]
  exact Instant.lt_of_lt_of_le hnow hle

/-- A revocation that does not count now changes nothing that counts now. -/
theorem findActive_insert_eq_none (h : s.findActive tokenId now = none) {time : Instant}
    {other : String} {expiresAt : Instant} (hother : tokenId = other → expiresAt ≤ now) :
    (s.insert time other expiresAt).findActive tokenId now = none := by
  unfold findActive insert at *
  dsimp only
  rw [Table.get?_insert]
  split
  · next heq =>
    subst heq
    have hended := hother rfl
    rw [Option.filter_some, if_neg]
    cases hrow : s.rows.get? tokenId with
    | none => simpa [Revocation.active, Instant.not_lt] using hended
    | some old =>
      rw [hrow] at h
      have hold : old.expiresAt ≤ now := by
        simpa [Revocation.active, Instant.not_lt, Option.filter_some] using h
      simpa [Revocation.active, Instant.not_lt] using Instant.max_le hold hended
  · exact h

/-- Whether every row is kept under the id of its token. -/
def Keyed (s : RevocationStore) : Prop :=
  ∀ key row, s.rows.get? key = some row → row.tokenId = key

theorem keyed_perform (h : s.Keyed) (now : Instant) (c : RevocationCall) :
    (s.perform now c).2.Keyed := by
  cases c with
  | insert other expiresAt =>
    intro key row hrow
    have hget : (s.insert now other expiresAt).rows.get? key = some row := hrow
    rw [insert, Table.get?_insert] at hget
    split at hget
    · next hkey =>
      subst hkey
      obtain rfl := Option.some.inj hget
      cases hold : s.rows.get? key with
      | none => rfl
      | some old => exact h key old hold
    · exact h key row hget
  | deleteExpired time => exact fun key row hrow => h key row (row_of_live hrow)
  | insertCutoff user revokedBefore expiresAt => exact h
  | findActive other time => exact h
  | findCutoff other time => exact h

/-- Whether every row is kept under its id, and none of a token lasts longer than until `t`. -/
def RevokedAtMost (s : RevocationStore) (tokenId : String) (t : Instant) : Prop :=
  ∀ key row, s.rows.get? key = some row →
    row.tokenId = key ∧ (key = tokenId → row.expiresAt ≤ t)

/-- Revocations do not last longer, as long as none is written that does. -/
theorem revokedAtMost_perform (h : s.RevokedAtMost tokenId t)
    (hc : ∀ expiresAt, c = .insert tokenId expiresAt → expiresAt ≤ t) :
    (s.perform now c).2.RevokedAtMost tokenId t := by
  cases c with
  | insert other expiresAt =>
    intro key row hrow
    have hget : (s.insert now other expiresAt).rows.get? key = some row := hrow
    rw [insert, Table.get?_insert] at hget
    split at hget
    · next hkey =>
      subst hkey
      obtain rfl := Option.some.inj hget
      cases hold : s.rows.get? key with
      | none => exact ⟨rfl, fun heq => hc expiresAt (heq ▸ rfl)⟩
      | some old =>
        obtain ⟨hid, hle⟩ := h key old hold
        exact ⟨hid, fun heq => Instant.max_le (hle heq) (hc expiresAt (heq ▸ rfl))⟩
    · exact h key row hget
  | deleteExpired time => exact fun key row hrow => h key row (row_of_live hrow)
  | insertCutoff user revokedBefore expiresAt => exact h
  | findActive other time => exact h
  | findCutoff other time => exact h

/-- What is found is the row of the token, active, and lasts no longer than it may. -/
theorem of_findActive (h : s.RevokedAtMost tokenId t) {other : String} {row : Revocation}
    (hfound : s.findActive other now = some row) :
    row.tokenId = other ∧ now < row.expiresAt ∧ (other = tokenId → row.expiresAt ≤ t) := by
  obtain ⟨hrow, hactive⟩ := Option.filter_eq_some_iff.1 hfound
  obtain ⟨hid, hle⟩ := h other row hrow
  exact ⟨hid, by simpa [Revocation.active] using hactive, hle⟩

/-! ## Cutoffs of users -/

/-- Whether no cutoff of a user on record is earlier than `t`. -/
def CutOffSince (s : RevocationStore) (user : UserId) (t : Instant) : Prop :=
  ∀ row, s.cutoffs.get? user = some row → t ≤ row.revokedBefore

/-- Whether the record has a cutoff of a user that lasts at least until `t`. -/
def CutOffUntil (s : RevocationStore) (user : UserId) (t : Instant) : Prop :=
  ∃ row, s.cutoffs.get? user = some row ∧ t ≤ row.expiresAt

theorem get?_insertCutoff (s : RevocationStore) (user other : UserId) (row : CutoffRow) :
    (s.insertCutoff user row).cutoffs.get? other =
      if other = user then some ((s.cutoffs.get? user).elim row fun old => old.merge row)
      else s.cutoffs.get? other := by
  rw [insertCutoff, Table.get?_insert]
  cases s.cutoffs.get? user <;> rfl

theorem cutOffSince_insertCutoff (s : RevocationStore) (user : UserId) (t expiresAt : Instant) :
    (s.insertCutoff user ⟨t, expiresAt⟩).CutOffSince user t := by
  intro row hrow
  rw [get?_insertCutoff, if_pos rfl] at hrow
  obtain rfl := Option.some.inj hrow
  cases s.cutoffs.get? user with
  | none => exact Instant.le_refl _
  | some old => exact Instant.le_max_right _ _

theorem cutOffUntil_insertCutoff (s : RevocationStore) (user : UserId)
    (revokedBefore t : Instant) :
    (s.insertCutoff user ⟨revokedBefore, t⟩).CutOffUntil user t := by
  unfold CutOffUntil
  rw [get?_insertCutoff, if_pos rfl]
  refine ⟨_, rfl, ?_⟩
  cases s.cutoffs.get? user with
  | none => exact Instant.le_refl _
  | some old => exact Instant.le_max_right _ _

/-- Whether the record has no cutoff of a user that is as late as `t`. -/
def CutOffBefore (s : RevocationStore) (user : UserId) (t : Instant) : Prop :=
  ∀ row, s.cutoffs.get? user = some row → row.revokedBefore < t

/-- The cutoff of a user stays that early, as long as none is written that is too late. -/
theorem cutOffBefore_perform (h : s.CutOffBefore user t)
    (hc : ∀ revokedBefore expiresAt, c = .insertCutoff user revokedBefore expiresAt →
      revokedBefore < t) : (s.perform now c).2.CutOffBefore user t := by
  cases c with
  | insertCutoff other revokedBefore expiresAt =>
    intro row hrow
    have hget : (s.insertCutoff other ⟨revokedBefore, expiresAt⟩).cutoffs.get? user = some row :=
      hrow
    rw [get?_insertCutoff] at hget
    split at hget
    · next heq =>
      subst heq
      obtain rfl := Option.some.inj hget
      have hearly := hc revokedBefore expiresAt rfl
      cases hold : s.cutoffs.get? user with
      | none => exact hearly
      | some old => exact Instant.max_lt (h old hold) hearly
    · exact h row hget
  | deleteExpired time => exact fun row hrow => h row (cutoff_of_live hrow)
  | insert other expiresAt => exact h
  | findActive other time => exact h
  | findCutoff other time => exact h

theorem lt_of_findCutoff (h : s.CutOffBefore user t) {revokedBefore : Instant}
    (hfound : s.findCutoff user now = some revokedBefore) : revokedBefore < t := by
  obtain ⟨row, hrow, rfl⟩ := Option.map_eq_some_iff.1 hfound
  exact h row (Option.filter_eq_some_iff.1 hrow).1

/-- No cutoff moves back, as long as none is written that is too early. -/
theorem cutOffSince_perform (h : s.CutOffSince user t)
    (hc : ∀ other revokedBefore expiresAt, c = .insertCutoff other revokedBefore expiresAt →
      t ≤ revokedBefore) : (s.perform now c).2.CutOffSince user t := by
  cases c with
  | insertCutoff other revokedBefore expiresAt =>
    intro row hrow
    have hget : (s.insertCutoff other ⟨revokedBefore, expiresAt⟩).cutoffs.get? user = some row :=
      hrow
    rw [get?_insertCutoff] at hget
    split at hget
    · next heq =>
      subst heq
      obtain rfl := Option.some.inj hget
      -- The cutoff written is merged with an old one, and the later of both counts.
      have hlater := hc user revokedBefore expiresAt rfl
      cases hold : s.cutoffs.get? user with
      | none => exact hlater
      | some old => exact Instant.le_max (Or.inr hlater)
    · exact h row hget
  | deleteExpired time => exact fun row hrow => h row (cutoff_of_live hrow)
  | insert other expiresAt => exact h
  | findActive other time => exact h
  | findCutoff other time => exact h

/-- A cutoff stays on record as long as nothing is purged that is later than its end. -/
theorem cutOffUntil_perform (h : s.CutOffUntil user t)
    (hc : ∀ time, c = .deleteExpired time → time < t) :
    (s.perform now c).2.CutOffUntil user t := by
  obtain ⟨row, hrow, hle⟩ := h
  cases c with
  | insertCutoff other revokedBefore expiresAt =>
    unfold CutOffUntil
    show ∃ row, (s.insertCutoff other ⟨revokedBefore, expiresAt⟩).cutoffs.get? user = some row ∧ _
    rw [get?_insertCutoff]
    split
    · next heq =>
      subst heq
      refine ⟨_, rfl, ?_⟩
      rw [hrow]
      exact Instant.le_max (Or.inl hle)
    · exact ⟨row, hrow, hle⟩
  | deleteExpired time =>
    have hlater : time < row.expiresAt := Instant.lt_of_lt_of_le (hc time rfl) hle
    refine ⟨row, ?_, hle⟩
    show (s.live time).cutoffs.get? user = some row
    rw [live, Table.get?_filter, hrow, Option.filter_some, if_pos (decide_eq_true hlater)]
  | insert other expiresAt => exact ⟨row, hrow, hle⟩
  | findActive other time => exact ⟨row, hrow, hle⟩
  | findCutoff other time => exact ⟨row, hrow, hle⟩

/-- A cutoff that is found is not too early, and one that lasts is found. -/
theorem le_of_findCutoff (h : s.CutOffSince user t) {revokedBefore : Instant}
    (hfound : s.findCutoff user now = some revokedBefore) : t ≤ revokedBefore := by
  obtain ⟨row, hrow, rfl⟩ := Option.map_eq_some_iff.1 hfound
  exact h row (Option.filter_eq_some_iff.1 hrow).1

theorem findCutoff_ne_none (h : s.CutOffUntil user t) (hnow : now < t) :
    s.findCutoff user now ≠ none := by
  obtain ⟨row, hrow, hle⟩ := h
  have hlater : now < row.expiresAt := Instant.lt_of_lt_of_le hnow hle
  rw [findCutoff, hrow, Option.filter_some, if_pos (decide_eq_true hlater)]
  exact Option.some_ne_none row.revokedBefore

end Bearer.RevocationStore
