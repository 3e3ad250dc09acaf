/-
  Cutoffs of a user given in any order.

  A cutoff that is written is merged with the one on record, and what is cached
  then is not what was written but what the record answers.  So an instance
  whose caches hold anything at all for the user holds the cutoff on record, and
  a cutoff that comes late does not take back one that reaches further.

  Main statements: `yields_revokeUser`, `TracksRecord.cutsOff`,
  `revocations_cutOff` and `revocations_merge`.
-/
import Bearer.Proofs.Fleet.Start
import Bearer.Proofs.Revocation.Checks
import Bearer.Proofs.Store.Merge

namespace Bearer

namespace Fleet

variable {n : Nat} {f : MemoryFleet n} {i : Fin n} {user : UserId}

/-- Whether an instance's caches show no cutoff of a user but the one on record that counts. -/
def TracksRecord (f : MemoryFleet n) (i : Fin n) (user : UserId) : Prop :=
  ∀ c, f.finds i .cutoff (Key.cutoff user) = some c →
    f.origin.revocations.findCutoff user f.wall = some c.revokedBefore

/-- What the caches show then makes no difference to what is cut off. -/
theorem TracksRecord.cutsOff (h : f.TracksRecord i user) (issuedAt : Instant) :
    f.cutsOff i user issuedAt =
      (f.origin.revocations.findCutoff user f.wall).any (fun t => issuedAt ≤ t) := by
  unfold Fleet.cutsOff cutoff?
  cases hcached : f.finds i .cutoff (Key.cutoff user) with
  | some c =>
    rw [h c hcached]
    rfl
  | none =>
    rw [Option.none_or, Option.any_map]
    rfl

/-- A cutoff that still counts goes on record, and the caches show no other one from then on. -/
theorem yields_revokeUser (row : CutoffRow) (hlasts : f.wall < row.expiresAt)
    {post : Except AuthError Unit → MemoryFleet n → Prop}
    (next : ∀ g : MemoryFleet n, g.wall = f.wall →
      g.origin.revocations = f.origin.revocations.insertCutoff user row → g.TracksRecord i user →
      post (.ok ()) g) :
    Yields i (Blacklist.revokeUser user row.revokedBefore row.expiresAt) post f := by
  rw [Blacklist.revokeUser, yields_bind, yields_revocation]
  dsimp only [RevocationStore.perform]
  rw [yields_bind, Blacklist.loadCutoff, yields_bind, yields_now]
  dsimp only
  rw [yields_bind, yields_revocation]
  dsimp only [RevocationStore.perform]
  have hrecord : (answer i (.revocation (.insertCutoff user row.revokedBefore row.expiresAt))
      f).2.origin.revocations = f.origin.revocations.insertCutoff user row := rfl
  rw [hrecord, answer_wall]
  have hlater := RevocationStore.cutOffUntil_insertCutoff f.origin.revocations user
    row.revokedBefore row.expiresAt
  cases hfound : (f.origin.revocations.insertCutoff user row).findCutoff user f.wall with
  | none => exact absurd hfound (RevocationStore.findCutoff_ne_none hlater hlasts)
  | some revokedBefore =>
    dsimp only
    rw [yields_bind, yields_cache]
    refine next _ rfl rfl fun c hc => ?_
    -- What has been cached is what the record has answered.
    have hlong : Key.cutoffLifetime.isZero = false := by decide
    have hcached : c = ⟨user, revokedBefore⟩ := finds_store .cutoff (Key.cutoff user) _ hlong hc
    subst hcached
    exact hfound

/-! ## Many cutoffs -/

/-- The fleet after an instance has cut off a user's tokens again and again. -/
def cutOff (f : MemoryFleet n) (i : Fin n) (user : UserId) (rows : List CutoffRow) :
    MemoryFleet n :=
  rows.foldl (fun f row =>
    (f.perform i (Blacklist.revokeUser user row.revokedBefore row.expiresAt)).2) f

theorem cutOff_concat {rows : List CutoffRow} {row : CutoffRow} :
    f.cutOff i user (rows ++ [row]) = ((f.cutOff i user rows).perform i
      (Blacklist.revokeUser user row.revokedBefore row.expiresAt)).2 :=
  List.foldl_append

/-- The cutoffs of a user as they are written at one time. -/
def writesOf (user : UserId) (time : Instant) (rows : List CutoffRow) :
    List (Instant × RevocationWrite) :=
  rows.map fun row => (time, .user user row)

/-- Cutoffs that still count go on record one by one, and the caches follow the record. -/
theorem revocations_cutOff (f : MemoryFleet n) (i : Fin n) (user : UserId) (rows : List CutoffRow)
    (hlast : ∀ row ∈ rows, f.wall < row.expiresAt) :
    (f.cutOff i user rows).wall = f.wall ∧
      (f.cutOff i user rows).origin.revocations =
        f.origin.revocations.write (writesOf user f.wall rows) ∧
      (rows ≠ [] → (f.cutOff i user rows).TracksRecord i user) := by
  induction rows using List.reverseRecOn with
  | nil => exact ⟨rfl, rfl, fun hne => absurd rfl hne⟩
  | append_singleton rows row ih =>
    obtain ⟨hwall, hrecord, -⟩ := ih fun other hother => hlast other (List.mem_append_left _ hother)
    have hlasts : (f.cutOff i user rows).wall < row.expiresAt :=
      hwall ▸ hlast row List.mem_concat_self
    have hwrites : writesOf user f.wall (rows ++ [row]) =
        writesOf user f.wall rows ++ [(f.wall, .user user row)] := List.map_append
    rw [cutOff_concat, hwrites, RevocationStore.write_concat, ← hrecord]
    have hyields : Yields i (Blacklist.revokeUser user row.revokedBefore row.expiresAt)
        (fun _ g => g.wall = f.wall ∧ g.origin.revocations =
          (f.cutOff i user rows).origin.revocations.insertCutoff user row ∧
          (rows ++ [row] ≠ [] → g.TracksRecord i user)) (f.cutOff i user rows) :=
      yields_revokeUser row hlasts fun g hsame hwritten htracks =>
        ⟨hsame.trans hwall, hwritten, fun _ => htracks⟩
    exact hyields

theorem times_writesOf (part : CutoffRow → Instant) (user : UserId) (time : Instant)
    (rows : List CutoffRow) :
    RevocationStore.times none (fun w => (w.row? user).map part) (writesOf user time rows) =
      rows.map part := by
  simp [RevocationStore.times, writesOf, RevocationWrite.row?, List.filterMap_map,
    Function.comp_def]

/-- Where a user had no cutoff, what counts after some have been given is the latest of them. -/
theorem findCutoff_cutOff (f : MemoryFleet n) (i : Fin n) (user : UserId) {rows : List CutoffRow}
    (hsome : rows ≠ []) (hlast : ∀ row ∈ rows, f.wall < row.expiresAt)
    (hnone : f.origin.revocations.cutoffs.get? user = none) :
    ∃ latest, Latest (rows.map CutoffRow.revokedBefore) (some latest) ∧
      (f.cutOff i user rows).origin.revocations.findCutoff user (f.cutOff i user rows).wall =
        some latest := by
  obtain ⟨hwall, hrecord, -⟩ := f.revocations_cutOff i user rows hlast
  have hbefore := f.origin.revocations.latest_revokedBefore (writesOf user f.wall rows) user
  have hexpiry := f.origin.revocations.latest_cutoffExpiry (writesOf user f.wall rows) user
  rw [hnone, Option.map_none, times_writesOf] at hbefore hexpiry
  rw [hwall, hrecord]
  cases hrow : (f.origin.revocations.write (writesOf user f.wall rows)).cutoffs.get? user with
  | none =>
    rw [hrow] at hbefore
    exact absurd (List.map_eq_nil_iff.1 hbefore) hsome
  | some merged =>
    rw [hrow] at hbefore hexpiry
    -- The expiry on record is one that was given, and none of those has passed.
    obtain ⟨row, hmem, hexpires⟩ := List.mem_map.1 hexpiry.1
    have hcounts : f.wall < merged.expiresAt := hexpires ▸ hlast row hmem
    refine ⟨merged.revokedBefore, hbefore, ?_⟩
    rw [RevocationStore.findCutoff, hrow, Option.filter_some, if_pos (decide_eq_true hcounts)]
    rfl

/-- Revocations can be written in any order and any number of times: the rows are the same but for
when they were first written, and each of their times is the latest that there was or was written.
When an instance has cut off the tokens of a user without a cutoff, in whichever order and whatever
its caches do, the user's tokens are revoked that were issued up to the latest of the cutoffs. -/
theorem revocations_merge :
    (∀ (s : RevocationStore) (writes : List (Instant × RevocationWrite)),
      (∀ tokenId, Latest
        (RevocationStore.times ((s.rows.get? tokenId).map Revocation.expiresAt)
          (fun w => w.expiry? tokenId) writes)
        (((s.write writes).rows.get? tokenId).map Revocation.expiresAt)) ∧
      (∀ user, Latest
        (RevocationStore.times ((s.cutoffs.get? user).map CutoffRow.revokedBefore)
          (fun w => (w.row? user).map CutoffRow.revokedBefore) writes)
        (((s.write writes).cutoffs.get? user).map CutoffRow.revokedBefore)) ∧
      (∀ user, Latest
        (RevocationStore.times ((s.cutoffs.get? user).map CutoffRow.expiresAt)
          (fun w => (w.row? user).map CutoffRow.expiresAt) writes)
        (((s.write writes).cutoffs.get? user).map CutoffRow.expiresAt)) ∧
      ∀ writes' : List (Instant × RevocationWrite),
        (∀ w, w ∈ writes.map Prod.snd ↔ w ∈ writes'.map Prod.snd) →
        (∀ tokenId, ((s.write writes).rows.get? tokenId).map Revocation.undated =
          ((s.write writes').rows.get? tokenId).map Revocation.undated) ∧
        ∀ user, (s.write writes).cutoffs.get? user = (s.write writes').cutoffs.get? user) ∧
    ∀ (n : Nat) (f : MemoryFleet n) (i : Fin n) (user : UserId) (rows : List CutoffRow),
      f.origin.revocations.cutoffs.get? user = none → rows ≠ [] →
      (∀ row ∈ rows, f.wall < row.expiresAt) →
      ∃ latest, Latest (rows.map CutoffRow.revokedBefore) (some latest) ∧
        ∀ issuedAt, ((f.cutOff i user rows).perform i (Blacklist.isUserRevoked user issuedAt)).1 =
          .ok (decide (issuedAt ≤ latest)) := by
  constructor
  · intro s writes
    exact ⟨s.latest_expiry writes, s.latest_revokedBefore writes, s.latest_cutoffExpiry writes,
      fun writes' hsame => ⟨RevocationStore.rows_write_congr hsame s,
        RevocationStore.cutoffs_write_congr hsame s⟩⟩
  · intro n f i user rows hnone hsome hlast
    obtain ⟨latest, hlatest, hfound⟩ := f.findCutoff_cutOff i user hsome hlast hnone
    refine ⟨latest, hlatest, fun issuedAt => ?_⟩
    have htracks := (f.revocations_cutOff i user rows hlast).2.2 hsome
    rw [perform_isUserRevoked, htracks.cutsOff, hfound, Option.any_some]

open Demo

/-- The demo user's tokens are cut off up to the thirtieth second, and then up to the fifteenth. -/
def demoRows : List CutoffRow :=
  [⟨{ second := 30, nanos := 0 }, demoMinute⟩,
    ⟨{ second := 15, nanos := 0 }, { second := 90, nanos := 0 }⟩]

/-- The earlier cutoff, which comes late, takes back nothing, and in the other order the record is
the same. -/
theorem revocations_merge_demo :
    (∃ latest, Latest (demoRows.map CutoffRow.revokedBefore) (some latest) ∧
      ∀ issuedAt, ((demo.cutOff 0 demoUser demoRows).perform 0
        (Blacklist.isUserRevoked demoUser issuedAt)).1 = .ok (decide (issuedAt ≤ latest))) ∧
    ∀ user, (RevocationStore.empty.write (writesOf demoUser .epoch demoRows)).cutoffs.get? user =
      (RevocationStore.empty.write (writesOf demoUser .epoch demoRows.reverse)).cutoffs.get?
        user := by
  obtain ⟨hmerge, hcut⟩ := revocations_merge
  refine ⟨hcut 2 demo 0 demoUser demoRows (by decide) (by decide) (by decide), ?_⟩
  obtain ⟨-, -, -, hsame⟩ := hmerge .empty (writesOf demoUser .epoch demoRows)
  refine (hsame (writesOf demoUser .epoch demoRows.reverse) fun w => ?_).2
  simp only [writesOf, List.map_reverse, List.mem_reverse]

end Fleet

end Bearer
