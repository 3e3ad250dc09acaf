/-
  Revocations written in any order.

  Writing a revocation keeps the later of each of its times, so what a store
  ends up with are the latest of the times that it had and was given.  The
  latest of some times does not depend on their order, nor on how often each of
  them is given; so neither does what is on record, but for the time at which a
  row was first written.

  Main statements: `latest_write`, `latest_expiry`, `latest_revokedBefore`,
  `latest_cutoffExpiry`, `rows_write_congr` and `cutoffs_write_congr`.
-/
import Bearer.Proofs.Store.Alike
import Mathlib.Data.List.Induction

namespace Bearer

/-! ## The latest of some times -/

/-- Whether something is the latest of some times, which is nothing if there are none. -/
def Latest (times : List Instant) : Option Instant → Prop
  | some t => t ∈ times ∧ ∀ other ∈ times, other ≤ t
  | none => times = []

section

variable {times times' : List Instant} {latest latest' : Option Instant} {t : Instant}

theorem Instant.le_antisymm {a b : Instant} (h : a ≤ b) (h' : b ≤ a) : a = b :=
  Instant.rank_inj (Int.le_antisymm h h')

/-- The latest of some times is told by which times there are. -/
theorem Latest.unique (h : Latest times latest) (h' : Latest times' latest')
    (hsame : ∀ t, t ∈ times ↔ t ∈ times') : latest = latest' := by
  cases latest with
  | none =>
    have hnone : times = [] := h
    cases latest' with
    | none => rfl
    | some t' =>
      have hmem : t' ∈ times := (hsame t').2 h'.1
      rw [hnone] at hmem
      cases hmem
  | some t =>
    have hmem : t ∈ times' := (hsame t).1 h.1
    cases latest' with
    | none =>
      have hnone : times' = [] := h'
      rw [hnone] at hmem
      cases hmem
    | some t' =>
      exact congrArg some (Instant.le_antisymm (h'.2 t hmem) (h.2 t' ((hsame t').2 h'.1)))

/-- The latest of some times and one more is the later of their latest and that one. -/
theorem Latest.concat (h : Latest times latest) (t : Instant) :
    Latest (times ++ [t]) (some (latest.elim t fun old => max old t)) := by
  cases latest with
  | none =>
    have hnone : times = [] := h
    subst hnone
    exact ⟨List.mem_singleton_self t, fun other hother =>
      List.mem_singleton.1 hother ▸ Instant.le_refl other⟩
  | some old =>
    obtain ⟨hmem, hupper⟩ := h
    constructor
    · -- The later of two times is one of them.
      show (if old ≤ t then t else old) ∈ times ++ [t]
      split
      · exact List.mem_concat_self
      · exact List.mem_append_left _ hmem
    · intro other hother
      rcases List.mem_append.1 hother with hother | hother
      · exact Instant.le_trans (hupper other hother) (Instant.le_max_left old t)
      · exact List.mem_singleton.1 hother ▸ Instant.le_max_right old t

end

/-! ## Writing revocations -/

/-- A revocation as it is written: of one token, or of all tokens of a user. -/
inductive RevocationWrite where
  | token (tokenId : String) (expiresAt : Instant)
  | user (user : UserId) (row : CutoffRow)
  deriving DecidableEq

namespace RevocationWrite

/-- The call that writes a revocation. -/
def call : RevocationWrite → RevocationCall
  | token tokenId expiresAt => .insert tokenId expiresAt
  | user owner row => .insertCutoff owner row.revokedBefore row.expiresAt

/-- The expiry that is written for a token. -/
def expiry? (tokenId : String) : RevocationWrite → Option Instant
  | token written expiresAt => if tokenId = written then some expiresAt else none
  | user .. => none

/-- The cutoff that is written for a user. -/
def row? (owner : UserId) : RevocationWrite → Option CutoffRow
  | token .. => none
  | user written row => if owner = written then some row else none

end RevocationWrite

namespace RevocationStore

variable {s : RevocationStore} {writes writes' : List (Instant × RevocationWrite)}
variable {tokenId : String} {user : UserId} {w : RevocationWrite} {time : Instant}
variable {had : Option Instant} {given : RevocationWrite → Option Instant}

/-- The store after revocations have been written, each at some time. -/
def write (s : RevocationStore) (writes : List (Instant × RevocationWrite)) : RevocationStore :=
  writes.foldl (fun s w => (s.perform w.1 w.2.call).2) s

theorem write_concat : s.write (writes ++ [(time, w)]) = ((s.write writes).perform time w.call).2 :=
  List.foldl_append

/-- The times that a store had in one place and was given there. -/
def times (had : Option Instant) (given : RevocationWrite → Option Instant)
    (writes : List (Instant × RevocationWrite)) : List Instant :=
  had.toList ++ (writes.map Prod.snd).filterMap given

/-- Which times those are depends only on which revocations are written. -/
theorem mem_times_congr (h : ∀ w, w ∈ writes.map Prod.snd ↔ w ∈ writes'.map Prod.snd)
    (t : Instant) : t ∈ times had given writes ↔ t ∈ times had given writes' := by
  simp only [times, List.mem_append, List.mem_filterMap, h]

/-- If every write keeps the later of what is there and what is given, then what there is in the
end is the latest of what there was and was given. -/
theorem latest_write (read : RevocationStore → Option Instant)
    (hstep : ∀ s time w, read (s.perform time w.call).2 =
      (given w).elim (read s) fun t => some ((read s).elim t fun old => max old t))
    (s : RevocationStore) (writes : List (Instant × RevocationWrite)) :
    Latest (times (read s) given writes) (read (s.write writes)) := by
  induction writes using List.reverseRecOn with
  | nil =>
    show Latest ((read s).toList ++ []) (read s)
    rw [List.append_nil]
    cases read s with
    | none => rfl
    | some t => exact ⟨List.mem_singleton_self t, fun other hother =>
        List.mem_singleton.1 hother ▸ Instant.le_refl other⟩
  | append_singleton writes last ih =>
    obtain ⟨time, w⟩ := last
    have htimes : times (read s) given (writes ++ [(time, w)]) =
        times (read s) given writes ++ (given w).toList := by
      rw [times, List.map_append, List.filterMap_append, ← List.append_assoc]
      cases hgiven : given w <;> simp [times, hgiven]
    rw [write_concat, hstep, htimes]
    cases given w with
    | none => rwa [Option.toList_none, List.append_nil]
    | some t => exact ih.concat t

/-- The expiry on record of a token is the latest that there was and was written. -/
theorem latest_expiry (s : RevocationStore) (writes : List (Instant × RevocationWrite))
    (tokenId : String) :
    Latest (times ((s.rows.get? tokenId).map Revocation.expiresAt) (·.expiry? tokenId) writes)
      (((s.write writes).rows.get? tokenId).map Revocation.expiresAt) := by
  refine latest_write (fun s => (s.rows.get? tokenId).map Revocation.expiresAt)
    (fun s time w => ?_) s writes
  cases w with
  | user owner row => rfl
  | token written expiresAt =>
    show ((s.insert time written expiresAt).rows.get? tokenId).map Revocation.expiresAt = _
    rw [insert, Table.get?_insert, RevocationWrite.expiry?]
    split
    · next heq =>
      subst heq
      cases s.rows.get? tokenId with
      | none => rfl
      | some old => rfl
    · rfl

/-- Each time of a user's cutoff on record is the latest that there was and was written. -/
theorem latest_part {part : CutoffRow → Instant}
    (hpart : ∀ old row : CutoffRow, part (old.merge row) = max (part old) (part row))
    (s : RevocationStore) (writes : List (Instant × RevocationWrite)) (user : UserId) :
    Latest (times ((s.cutoffs.get? user).map part) (fun w => (w.row? user).map part) writes)
      (((s.write writes).cutoffs.get? user).map part) := by
  refine latest_write (fun s => (s.cutoffs.get? user).map part) (fun s time w => ?_) s writes
  cases w with
  | token tokenId expiresAt => rfl
  | user owner row =>
    show ((s.insertCutoff owner row).cutoffs.get? user).map part = _
    rw [get?_insertCutoff, RevocationWrite.row?]
    split
    · next heq =>
      subst heq
      cases s.cutoffs.get? user with
      | none => rfl
      | some old => exact congrArg some (hpart old row)
    · rfl

theorem latest_revokedBefore (s : RevocationStore) (writes : List (Instant × RevocationWrite))
    (user : UserId) :
    Latest (times ((s.cutoffs.get? user).map CutoffRow.revokedBefore)
        (fun w => (w.row? user).map CutoffRow.revokedBefore) writes)
      (((s.write writes).cutoffs.get? user).map CutoffRow.revokedBefore) :=
  latest_part (fun _ _ => rfl) s writes user

theorem latest_cutoffExpiry (s : RevocationStore) (writes : List (Instant × RevocationWrite))
    (user : UserId) :
    Latest (times ((s.cutoffs.get? user).map CutoffRow.expiresAt)
        (fun w => (w.row? user).map CutoffRow.expiresAt) writes)
      (((s.write writes).cutoffs.get? user).map CutoffRow.expiresAt) :=
  latest_part (fun _ _ => rfl) s writes user

/-! ## Any order -/

/-- No row is lost. -/
theorem get?_of_write_eq_none (h : (s.write writes).rows.get? tokenId = none) :
    s.rows.get? tokenId = none := by
  have hlatest := latest_expiry s writes tokenId
  rw [h] at hlatest
  have hhad := (List.append_eq_nil_iff.1 hlatest).1
  cases hrow : s.rows.get? tokenId with
  | none => rfl
  | some row =>
    rw [hrow] at hhad
    cases hhad

/-- The row of a token keeps the id that it had, or has the token's. -/
theorem tokenId_write {row : Revocation} (hrow : (s.write writes).rows.get? tokenId = some row) :
    row.tokenId = ((s.rows.get? tokenId).map Revocation.tokenId).getD tokenId := by
  induction writes using List.reverseRecOn generalizing row with
  | nil =>
    have hsame : s.rows.get? tokenId = some row := hrow
    rw [hsame]
    rfl
  | append_singleton writes last ih =>
    obtain ⟨time, w⟩ := last
    rw [write_concat] at hrow
    cases w with
    | user owner cutoff => exact ih hrow
    | token written expiresAt =>
      have hget : ((s.write writes).insert time written expiresAt).rows.get? tokenId = some row :=
        hrow
      rw [insert, Table.get?_insert] at hget
      split at hget
      · next heq =>
        subst heq
        cases hold : (s.write writes).rows.get? tokenId with
        | none =>
          rw [hold] at hget
          obtain rfl := Option.some.inj hget
          rw [get?_of_write_eq_none hold]
          rfl
        | some old =>
          rw [hold] at hget
          obtain rfl := Option.some.inj hget
          have hkept := ih hold
          exact hkept
      · exact ih hget

/-- Which revocations are written tells the rows, but for when they were written first. -/
theorem rows_write_congr (h : ∀ w, w ∈ writes.map Prod.snd ↔ w ∈ writes'.map Prod.snd)
    (s : RevocationStore) (tokenId : String) :
    ((s.write writes).rows.get? tokenId).map Revocation.undated =
      ((s.write writes').rows.get? tokenId).map Revocation.undated := by
  have hexpiry := (latest_expiry s writes tokenId).unique (latest_expiry s writes' tokenId)
    (mem_times_congr h)
  obtain ⟨hrow, hrow'⟩ | ⟨row, row', hrow, hrow', hsame⟩ := none_or_some hexpiry
  · rw [hrow, hrow']
  · have hid : row.tokenId = row'.tokenId := (tokenId_write hrow).trans (tokenId_write hrow').symm
    rw [hrow, hrow', Option.map_some, Option.map_some, Revocation.undated, Revocation.undated,
      hsame, hid]

/-- Which revocations are written tells the cutoffs. -/
theorem cutoffs_write_congr (h : ∀ w, w ∈ writes.map Prod.snd ↔ w ∈ writes'.map Prod.snd)
    (s : RevocationStore) (user : UserId) :
    (s.write writes).cutoffs.get? user = (s.write writes').cutoffs.get? user := by
  have hbefore := (latest_revokedBefore s writes user).unique (latest_revokedBefore s writes' user)
    (mem_times_congr h)
  have hexpiry := (latest_cutoffExpiry s writes user).unique (latest_cutoffExpiry s writes' user)
    (mem_times_congr h)
  obtain ⟨hrow, hrow'⟩ | ⟨row, row', hrow, hrow', hsame⟩ := none_or_some hbefore
  · rw [hrow, hrow']
  · rw [hrow, hrow'] at hexpiry ⊢
    have hends : row.expiresAt = row'.expiresAt := Option.some.inj hexpiry
    exact congrArg some (congrArg₂ CutoffRow.mk hsame hends)

end RevocationStore

end Bearer
