/-
  Sessions of record, from call to call.

  A row is made by an upsert for a user who has none, under the next number,
  and keeps that number until it is removed; whatever is written into it in
  between, and whenever its user gets another row, the number tells.  So over
  any calls a row met later has the number of one met earlier exactly if it is
  that user's and the user has had a row all the time.

  A number is a 64-bit word.  What is said of numbers is said as long as fewer
  than 2 ^ 64 rows have been made; everything else is said of any calls.

  Main statements: `perform_of_declined`, `updated_iff`, `rows_of_updated`,
  `id_eq_iff` and `sessions_well_formed`.
-/
import Bearer.Proofs.Store.Session
import Mathlib.Data.List.Induction

namespace Bearer

/-- Whether a call has answered that it has failed or that it has found nothing to change. -/
def SessionCall.Declined : (c : SessionCall) → c.Reply → Prop
  | .updateToken .., reply | .deleteByUser _, reply => reply = .ok false ∨ ∃ e, reply = .error e
  | .upsert .., reply | .deleteExpired _, reply => ∃ e, reply = .error e
  | .findByUser .., reply | .findByToken .., reply => ∃ e, reply = .error e

namespace SessionStore

variable {s : SessionStore} {user other : UserId} {token : String} {now expiresAt : Instant}
variable {row row' : Session} {expected : Option String} {c : SessionCall}
variable {calls more : List SessionCall}

/-- The store after some calls. -/
def after (s : SessionStore) (calls : List SessionCall) : SessionStore :=
  calls.foldl (fun s c => (s.perform c).2) s

theorem after_concat : s.after (calls ++ [c]) = ((s.after calls).perform c).2 :=
  List.foldl_append

theorem after_append : s.after (calls ++ more) = (s.after calls).after more :=
  List.foldl_append

theorem Reached.after (h : s.Reached) (calls : List SessionCall) : (s.after calls).Reached := by
  induction calls generalizing s with
  | nil => exact h
  | cons c calls ih => exact ih (h.perform c)

/-! ## Calls that are declined, and updates that are done -/

/-- A call that is declined changes no row. -/
theorem perform_of_declined (h : c.Declined (s.perform c).1) : (s.perform c).2.rows = s.rows := by
  cases c with
  | upsert user token expiresAt createdAt =>
    obtain ⟨e, hfailed⟩ := h
    rcases s.upsert_cases user token expiresAt createdAt with ⟨row, hdone, -⟩ | ⟨-, hsame⟩
    · rw [hdone] at hfailed
      cases hfailed
    · rw [hsame]
  | updateToken user expected token expiresAt =>
    refine congrArg rows (perform_of_not_updated ?_)
    rcases h with hfalse | ⟨e, hfailed⟩
    · simp [hfalse]
    · simp [hfailed]
  | deleteByUser user =>
    rcases h with hfalse | ⟨e, hfailed⟩
    · have habsent : s.rows.contains user = false := Except.ok.inj hfalse
      show s.rows.erase user = s.rows
      rw [Table.erase, habsent, if_neg Bool.false_ne_true]
    · cases hfailed
  | findByUser user now => rfl
  | findByToken token now => rfl
  | deleteExpired now =>
    obtain ⟨e, hfailed⟩ := h
    cases hfailed

/-- An update is done exactly if the user has a row, that row holds the token that is expected,
and no other user's row holds the new one. -/
theorem updated_iff :
    (s.perform (.updateToken user expected token expiresAt)).1 = .ok true ↔
      s.takenByOther user token = false ∧
        ∃ row, s.rows.get? user = some row ∧ ∀ old ∈ expected, row.refreshToken = old := by
  constructor
  · intro hdone
    obtain ⟨row, hrow, hexpected, -⟩ | ⟨hnot, -⟩ := s.update_cases user expected token expiresAt
    · refine ⟨?_, row, hrow, hexpected⟩
      cases htaken : s.takenByOther user token with
      | false => rfl
      | true => simp [perform, htaken] at hdone
    · exact absurd hdone hnot
  · rintro ⟨hfree, row, hrow, hexpected⟩
    have hheld : expected.all (· = row.refreshToken) = true := by
      cases expected with
      | none => rfl
      | some old => exact decide_eq_true (hexpected old rfl).symm
    simp [perform, hfree, updateToken, hrow, hheld]

/-- An update that is done gives the user's row the token and the expiry, and changes no more. -/
theorem rows_of_updated
    (h : (s.perform (.updateToken user expected token expiresAt)).1 = .ok true) :
    ∃ row, s.rows.get? user = some row ∧
      ∀ other, (s.perform (.updateToken user expected token expiresAt)).2.rows.get? other =
        if other = user then some { row with refreshToken := token, expiresAt }
        else s.rows.get? other := by
  rcases s.update_cases user expected token expiresAt with
    ⟨row, hrow, -, -, hrows⟩ | ⟨hnot, -⟩
  · refine ⟨row, hrow, fun other => ?_⟩
    rw [hrows, Table.get?_insert]
  · exact absurd h hnot

/-- A token finds the row that holds it exactly if there is one and it has not ended. -/
theorem Coherent.findByToken_iff (h : s.Coherent) :
    s.findByToken token now = some row ↔
      ∃ user, s.rows.get? user = some row ∧ row.refreshToken = token ∧ now < row.expiresAt := by
  rw [h.findByToken_eq_some_iff, findByUser_eq_some_iff]
  constructor
  · rintro ⟨⟨hrow, hlive⟩, hheld⟩
    exact ⟨row.user, hrow, hheld, hlive⟩
  · rintro ⟨user, hrow, hheld, hlive⟩
    exact ⟨⟨h.keyed user row hrow ▸ hrow, hlive⟩, hheld⟩

/-- A coherent store has one row for each user. -/
theorem Coherent.users_nodup (h : s.Coherent) :
    (s.rows.entries.map fun entry => entry.2.user).Nodup := by
  have hkeys : (s.rows.entries.map fun entry => entry.2.user) = s.rows.keys := by
    refine List.map_congr_left fun entry hentry => ?_
    exact h.keyed entry.1 entry.2 ((Table.mem_entries_iff ..).1 hentry)
  exact hkeys ▸ s.rows.distinct

/-! ## Where the numbers come from -/

/-- A row keeps the number that the user's row had, or has just been made under the next one. -/
theorem id_of_perform (hrow : (s.perform c).2.rows.get? user = some row) :
    (∃ old, s.rows.get? user = some old ∧ row.id = old.id) ∨
      (s.rows.get? user = none ∧ c.subject? = some user) ∧
        row.id = UInt64.ofNat (s.created + 1) ∧ (s.perform c).2.created = s.created + 1 := by
  cases c with
  | upsert owner token expiresAt createdAt =>
    simp only [perform] at hrow ⊢
    split at hrow
    · exact Or.inl ⟨row, hrow, rfl⟩
    · next hfree =>
      rw [if_neg hfree]
      unfold upsert at hrow ⊢
      cases hold : s.rows.get? owner with
      | none =>
        rw [hold] at hrow
        rcases row_of_insert hrow with hsame | ⟨rfl, rfl⟩
        · exact Or.inl ⟨row, hsame, rfl⟩
        · exact Or.inr ⟨⟨hold, rfl⟩, rfl, rfl⟩
      | some old =>
        rw [hold] at hrow
        rcases row_of_insert hrow with hsame | ⟨rfl, rfl⟩
        · exact Or.inl ⟨row, hsame, rfl⟩
        · exact Or.inl ⟨old, hold, rfl⟩
  | updateToken owner expected token expiresAt =>
    refine Or.inl ?_
    rcases s.update_cases owner expected token expiresAt with
      ⟨old, hold, -, -, hrows⟩ | ⟨-, hsame⟩
    · rw [hrows] at hrow
      rcases row_of_insert hrow with hkept | ⟨rfl, rfl⟩
      · exact ⟨row, hkept, rfl⟩
      · exact ⟨old, hold, rfl⟩
    · rw [hsame] at hrow
      exact ⟨row, hrow, rfl⟩
  | deleteByUser owner =>
    refine Or.inl ⟨row, ?_, rfl⟩
    have hget : (s.rows.erase owner).get? user = some row := hrow
    rw [Table.get?_erase] at hget
    split at hget
    · cases hget
    · exact hget
  | deleteExpired now => exact Or.inl ⟨row, row_of_live hrow, rfl⟩
  | findByUser owner now => exact Or.inl ⟨row, hrow, rfl⟩
  | findByToken token now => exact Or.inl ⟨row, hrow, rfl⟩

/-- No call takes back a number. -/
theorem created_le_perform : s.created ≤ (s.perform c).2.created := by
  cases c with
  | upsert owner token expiresAt createdAt =>
    simp only [perform]
    split
    · exact Nat.le_refl _
    · unfold upsert
      split
      · exact Nat.le_refl _
      · exact Nat.le_succ _
  | updateToken owner expected token expiresAt => exact Nat.le_of_eq (update_created ..).symm
  | deleteByUser owner => exact Nat.le_refl _
  | deleteExpired now => exact Nat.le_refl _
  | findByUser owner now => exact Nat.le_refl _
  | findByToken token now => exact Nat.le_refl _

/-- Whether every row has a number that was given out, and no two rows have one number. -/
structure Numbered (s : SessionStore) : Prop where
  given : ∀ user row, s.rows.get? user = some row → row.id.toNat ≤ s.created
  distinct : ∀ user other row row', s.rows.get? user = some row →
    s.rows.get? other = some row' → row'.id = row.id → other = user

/-- A number that has just been given out is the number itself, before the words run out. -/
theorem toNat_next (hcount : s.created + 1 < UInt64.size) :
    (UInt64.ofNat (s.created + 1)).toNat = s.created + 1 :=
  UInt64.toNat_ofNat_of_lt hcount

theorem Numbered.perform (h : s.Numbered) (hcount : (s.perform c).2.created < UInt64.size) :
    (s.perform c).2.Numbered := by
  -- A row that has just been made has a greater number than all that were there.
  have hnew : ∀ {user} {row : Session}, row.id = UInt64.ofNat (s.created + 1) →
      (s.perform c).2.created = s.created + 1 → ∀ {old : Session},
      s.rows.get? user = some old → old.id ≠ row.id := by
    intro user row hid hcreated old hold heq
    have hnumber := toNat_next (s := s) (hcreated ▸ hcount)
    have hgiven := h.given user old hold
    rw [heq, hid, hnumber] at hgiven
    exact absurd hgiven (by omega)
  constructor
  · intro user row hrow
    rcases id_of_perform hrow with ⟨old, hold, hid⟩ | ⟨-, hid, hcreated⟩
    · rw [hid]
      exact Nat.le_trans (h.given user old hold) created_le_perform
    · rw [hid, toNat_next (hcreated ▸ hcount)]
      exact Nat.le_of_eq hcreated.symm
  · intro user other row row' hrow hrow' heq
    rcases id_of_perform hrow with ⟨old, hold, hid⟩ | ⟨⟨-, hsubject⟩, hid, hcreated⟩
    · rcases id_of_perform hrow' with ⟨old', hold', hid'⟩ | ⟨-, hid', hcreated⟩
      · exact h.distinct user other old old' hold hold' (hid'.symm.trans (heq.trans hid))
      · exact absurd (hid.symm.trans heq.symm) (hnew hid' hcreated hold)
    · rcases id_of_perform hrow' with ⟨old', hold', hid'⟩ | ⟨⟨-, hsubject'⟩, -⟩
      · exact absurd (hid'.symm.trans heq) (hnew hid hcreated hold')
      · exact Option.some.inj (hsubject'.symm.trans hsubject)

theorem created_le_after (s : SessionStore) (more : List SessionCall) :
    s.created ≤ (s.after more).created := by
  induction more using List.reverseRecOn with
  | nil => exact Nat.le_refl _
  | append_singleton more c ih =>
    rw [after_concat]
    exact Nat.le_trans ih created_le_perform

theorem Numbered.after (h : s.Numbered) (hcount : (s.after more).created < UInt64.size) :
    (s.after more).Numbered := by
  induction more using List.reverseRecOn with
  | nil => exact h
  | append_singleton more c ih =>
    rw [after_concat] at hcount ⊢
    exact (ih (Nat.lt_of_le_of_lt created_le_perform hcount)).perform hcount

theorem numbered_empty : empty.Numbered := by
  constructor
  · intro user row h
    cases h
  · intro user other row row' h
    cases h

/-! ## What a number tells -/

/-- Whether a user has a row before calls are made, and after each of them. -/
def HasRowDuring (s : SessionStore) (user : UserId) (more : List SessionCall) : Prop :=
  ∀ made, made <+: more → ∃ row, (s.after made).rows.get? user = some row

theorem hasRowDuring_concat : s.HasRowDuring user (more ++ [c]) ↔
    s.HasRowDuring user more ∧ ∃ row, (s.after (more ++ [c])).rows.get? user = some row := by
  constructor
  · intro h
    exact ⟨fun made hmade => h made (hmade.trans (List.prefix_append ..)),
      h _ (List.prefix_refl _)⟩
  · rintro ⟨hmore, hlast⟩ made hmade
    rcases List.prefix_concat_iff.1 hmade with rfl | hmade
    · exact hlast
    · exact hmore made hmade

/-- As long as a user has a row, its number stays. -/
theorem id_of_hasRowDuring (hrow : s.rows.get? user = some row) (h : s.HasRowDuring user more)
    (hrow' : (s.after more).rows.get? user = some row') : row'.id = row.id := by
  induction more using List.reverseRecOn generalizing row' with
  | nil => exact congrArg Session.id (Option.some.inj (hrow'.symm.trans hrow))
  | append_singleton more c ih =>
    obtain ⟨hmore, -⟩ := hasRowDuring_concat.1 h
    obtain ⟨old, hold⟩ := hmore more (List.prefix_refl more)
    rw [after_concat] at hrow'
    rcases id_of_perform hrow' with ⟨old', hold', hkept⟩ | ⟨⟨hnone, -⟩, -⟩
    · exact hkept.trans (ih hmore hold')
    · rw [hold] at hnone
      cases hnone

/-- A number that a row has belongs to one user, who has had a row since. -/
theorem of_id_eq (h : s.Numbered) (hcount : (s.after more).created < UInt64.size)
    (hrow : s.rows.get? user = some row)
    (hrow' : (s.after more).rows.get? other = some row') (hid : row'.id = row.id) :
    other = user ∧ s.HasRowDuring user more := by
  induction more using List.reverseRecOn generalizing row' with
  | nil =>
    refine ⟨h.distinct user other row row' hrow hrow' hid, fun made hmade => ?_⟩
    rw [List.prefix_nil.1 hmade]
    exact ⟨row, hrow⟩
  | append_singleton more c ih =>
    have hlast := hrow'
    rw [after_concat] at hrow' hcount
    rcases id_of_perform hrow' with ⟨old, hold, hkept⟩ | ⟨-, hnew, hcreated⟩
    · obtain ⟨rfl, hmore⟩ := ih (Nat.lt_of_le_of_lt created_le_perform hcount) hold
        (hkept.symm.trans hid)
      exact ⟨rfl, hasRowDuring_concat.2 ⟨hmore, row', hlast⟩⟩
    · -- A number that has just been given out is greater than all that were given out before.
      have hnumber := toNat_next (s := s.after more) (hcreated ▸ hcount)
      have hgiven := h.given user row hrow
      have hle := s.created_le_after more
      rw [← hid, hnew, hnumber] at hgiven
      omega

/-- A row has the number of an earlier one exactly if it is of the same user, who has had a row
all the time. -/
theorem id_eq_iff (h : s.Numbered) (hcount : (s.after more).created < UInt64.size)
    (hrow : s.rows.get? user = some row) (hrow' : (s.after more).rows.get? other = some row') :
    row'.id = row.id ↔ other = user ∧ s.HasRowDuring user more := by
  constructor
  · exact of_id_eq h hcount hrow hrow'
  · rintro ⟨rfl, hmore⟩
    exact id_of_hasRowDuring hrow hmore hrow'

/-- After any calls there is one row for each user, it is that user's, and no two users' rows hold
one token.  A call that is declined changes no row.  An update is done exactly if the row holds the
token that is expected and no other row the new one, and it changes the token and the expiry of that
row.  A token finds the row that holds it, unless that has ended.  Whatever is called next, a row
has the number of an earlier one exactly if it is of the same user, who has had a row all the
time. -/
theorem sessions_well_formed (calls : List SessionCall) :
    (empty.after calls).Coherent ∧
    ((empty.after calls).rows.entries.map fun entry => entry.2.user).Nodup ∧
    (∀ c : SessionCall, c.Declined ((empty.after calls).perform c).1 →
      ((empty.after calls).perform c).2.rows = (empty.after calls).rows) ∧
    (∀ user expected token expiresAt,
      ((empty.after calls).perform (.updateToken user expected token expiresAt)).1 = .ok true ↔
        (empty.after calls).takenByOther user token = false ∧
          ∃ row, (empty.after calls).rows.get? user = some row ∧
            ∀ old ∈ expected, row.refreshToken = old) ∧
    (∀ user expected token expiresAt,
      ((empty.after calls).perform (.updateToken user expected token expiresAt)).1 = .ok true →
      ∃ row, (empty.after calls).rows.get? user = some row ∧
        ∀ other, ((empty.after calls).perform
            (.updateToken user expected token expiresAt)).2.rows.get? other =
          if other = user then some { row with refreshToken := token, expiresAt }
          else (empty.after calls).rows.get? other) ∧
    (∀ token now, ∃ found,
      ((empty.after calls).perform (.findByToken token now)).1 = .ok found ∧
      ∀ row, found = some row ↔ ∃ user, (empty.after calls).rows.get? user = some row ∧
        row.refreshToken = token ∧ now < row.expiresAt) ∧
    ∀ more, (empty.after (calls ++ more)).created < UInt64.size →
      ∀ user row other row', (empty.after calls).rows.get? user = some row →
        (empty.after (calls ++ more)).rows.get? other = some row' →
        (row'.id = row.id ↔ other = user ∧ (empty.after calls).HasRowDuring user more) := by
  have hcoherent : (empty.after calls).Coherent := (Reached.empty.after calls).coherent
  refine ⟨hcoherent, hcoherent.users_nodup, fun c => perform_of_declined,
    fun _ _ _ _ => updated_iff, fun _ _ _ _ => rows_of_updated, ?_, ?_⟩
  · intro token now
    exact ⟨_, rfl, fun row => hcoherent.findByToken_iff⟩
  · intro more hcount user row other row' hrow hrow'
    rw [after_append] at hcount hrow'
    have hnumbered : (empty.after calls).Numbered :=
      numbered_empty.after (Nat.lt_of_le_of_lt (created_le_after ..) hcount)
    exact id_eq_iff hnumbered hcount hrow hrow'

/-- When the first sessions end. -/
def demoEnd : Instant := { second := 20, nanos := 0 }

/-- When a session ends that was given another token. -/
def demoLater : Instant := { second := 40, nanos := 0 }

/-- Two users log in. -/
def demoCalls : List SessionCall :=
  [.upsert ⟨1⟩ "one" demoEnd .epoch, .upsert ⟨2⟩ "two" demoEnd .epoch]

/-- The first user logs out and in again, with the token of before. -/
def demoReturn : List SessionCall :=
  [.deleteByUser ⟨1⟩, .upsert ⟨1⟩ "one" demoEnd .epoch]

/-- The second user is refused the token of the first and gets another one, and the first user's
session is another one after the return. -/
theorem sessions_well_formed_demo :
    ((empty.after demoCalls).perform (.updateToken ⟨2⟩ (some "two") "one" demoLater)).2.rows =
      (empty.after demoCalls).rows ∧
    ((empty.after demoCalls).perform
      (.updateToken ⟨2⟩ (some "two") "three" demoLater)).2.rows.get? ⟨2⟩ =
        some ⟨2, ⟨2⟩, "three", demoLater, .epoch⟩ ∧
    ¬ (empty.after demoCalls).HasRowDuring ⟨1⟩ demoReturn := by
  obtain ⟨-, -, hdeclined, hdone, hwritten, -, hid⟩ := sessions_well_formed demoCalls
  have hrow : (empty.after demoCalls).rows.get? ⟨1⟩ = some ⟨1, ⟨1⟩, "one", demoEnd, .epoch⟩ := by
    decide
  have hrow' : (empty.after (demoCalls ++ demoReturn)).rows.get? ⟨1⟩ =
      some ⟨3, ⟨1⟩, "one", demoEnd, .epoch⟩ := by decide
  refine ⟨hdeclined _ (Or.inr ⟨.persistence .duplicateRefreshToken, by decide⟩), ?_,
    fun hkept => ?_⟩
  · obtain ⟨row, hheld, hrows⟩ := hwritten ⟨2⟩ (some "two") "three" demoLater
      ((hdone ..).2 ⟨by decide, ⟨2, ⟨2⟩, "two", demoEnd, .epoch⟩, by decide, by decide⟩)
    have hbefore : (empty.after demoCalls).rows.get? ⟨2⟩ =
        some ⟨2, ⟨2⟩, "two", demoEnd, .epoch⟩ := by decide
    obtain rfl := Option.some.inj (hheld.symm.trans hbefore)
    rw [hrows, if_pos rfl]
  · exact absurd ((hid demoReturn (by decide) ⟨1⟩ _ ⟨1⟩ _ hrow hrow').2 ⟨rfl, hkept⟩) (by decide)

end SessionStore

end Bearer
