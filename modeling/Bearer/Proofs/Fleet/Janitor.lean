/-
  The janitor does not show.

  A run of the janitor removes from the stores of record what has elapsed and
  nothing else, and counts it.  What has elapsed is passed over by every
  operation of the facade, so a run answers the same however often, and
  wherever, the janitor comes in between; only the numbers of sessions tell.

  Main statements: `execute_tidy`, `Alike.tidy` and `tidy_invisible`.
-/
import Bearer.Proofs.Fleet.Start
import Bearer.Proofs.Fleet.Twins

namespace Bearer

/-! ## What a run of the janitor counts -/

namespace SessionStore

/-- The number of sessions whose expiry has come. -/
def elapsed (s : SessionStore) (now : Instant) : Nat :=
  s.rows.count fun _ row => row.expiresAt ≤ now

theorem elapsed_eq (s : SessionStore) (now : Instant) :
    s.elapsed now = s.rows.count fun _ row => !!row.expired now := by
  simp only [elapsed, Session.expired, Bool.not_not]

/-- A purge removes the sessions whose expiry has come. -/
theorem size_sub_live (s : SessionStore) (now : Instant) :
    s.rows.size - (s.live now).rows.size = s.elapsed now := by
  rw [elapsed_eq]
  exact s.rows.size_sub_filter _

theorem elapsed_live (s : SessionStore) (now : Instant) : (s.live now).elapsed now = 0 := by
  rw [elapsed_eq]
  exact s.rows.count_filter_not _

end SessionStore

namespace RevocationStore

/-- The number of rows and cutoffs whose expiry has come. -/
def elapsed (s : RevocationStore) (now : Instant) : Nat :=
  (s.rows.count fun _ row => row.expiresAt ≤ now) +
    s.cutoffs.count fun _ row => row.expiresAt ≤ now

theorem elapsed_eq (s : RevocationStore) (now : Instant) :
    s.elapsed now = (s.rows.count fun _ row => !row.active now) +
      s.cutoffs.count fun _ row => !decide (now < row.expiresAt) := by
  simp only [elapsed, Revocation.active, ← decide_not, Instant.not_lt]

/-- A purge removes the rows and cutoffs whose expiry has come. -/
theorem size_sub_live (s : RevocationStore) (now : Instant) :
    s.size - (s.live now).size = s.elapsed now := by
  have hrows := s.rows.size_sub_filter fun _ row => row.active now
  have hcutoffs := s.cutoffs.size_sub_filter fun _ row => decide (now < row.expiresAt)
  have hle : (s.live now).rows.size ≤ s.rows.size := List.length_filter_le ..
  have hle' : (s.live now).cutoffs.size ≤ s.cutoffs.size := List.length_filter_le ..
  rw [elapsed_eq, ← hrows, ← hcutoffs, size, size]
  show s.rows.size + s.cutoffs.size - ((s.live now).rows.size + (s.live now).cutoffs.size) =
    s.rows.size - (s.live now).rows.size + (s.cutoffs.size - (s.live now).cutoffs.size)
  omega

theorem elapsed_live (s : RevocationStore) (now : Instant) : (s.live now).elapsed now = 0 := by
  rw [elapsed_eq, live, Table.count_filter_not, Table.count_filter_not]

end RevocationStore

/-- Whether a move is a run of the janitor. -/
def Move.tidies {n : Nat} : Move n → Bool
  | .execute _ o => o = .tidy
  | .event _ => false

namespace Fleet

variable {n : Nat} {f f' : MemoryFleet n}

/-- A run of the janitor counts what has elapsed, and removes it from the stores of record. -/
theorem execute_tidy (f : MemoryFleet n) (i : Fin n) :
    f.execute i .tidy =
      (.ok ⟨f.origin.sessions.elapsed f.wall, f.origin.revocations.elapsed f.wall⟩,
        { f with origin := { f.origin with
          sessions := f.origin.sessions.live f.wall
          revocations := f.origin.revocations.live f.wall } }) := by
  rw [← SessionStore.size_sub_live, ← RevocationStore.size_sub_live]
  rfl

/-! ## What does not show -/

/-- A run of the janitor does not show. -/
theorem Alike.tidy (h : f.Alike f') (i : Fin n) : f.Alike (f'.execute i .tidy).2 := by
  rw [execute_tidy]
  exact { h with
    drawn' := fun user row hrow => h.drawn' user row (SessionStore.row_of_live hrow)
    sessions := by
      rw [← h.wall]
      exact h.sessions.live
    revocations := by
      rw [← h.wall]
      exact h.revocations.live }

/-- A fleet in which nothing has happened is like itself. -/
theorem Fresh.alike (hf : f.Fresh) : f.Alike f where
  wall := rfl
  clock := rfl
  ids := rfl
  minted := rfl
  users := rfl
  drawn user row hrow := by
    rw [hf.sessions] at hrow
    cases hrow
  drawn' user row hrow := by
    rw [hf.sessions] at hrow
    cases hrow
  sessions := by
    rw [hf.sessions]
    exact ⟨SessionStore.coherent_empty, SessionStore.coherent_empty, fun _ => rfl⟩
  revocations := by
    rw [hf.revocations]
    exact
      { keyed := fun _ _ hrow => nomatch hrow
        keyed' := fun _ _ hrow => nomatch hrow
        past := fun _ _ hrow => nomatch hrow
        past' := fun _ _ hrow => nomatch hrow
        active := fun _ => rfl
        cutoff := fun _ => rfl }
  shared := ⟨rfl, rfl, fun _ => rfl⟩
  caches j := ⟨rfl, rfl, fun _ => rfl⟩
  issuers _ := rfl
  revoked _ := rfl

/-! ## Runs -/

/-- A run without the janitor's part in it. -/
def withoutTidying (moves : List (Move n)) : List (Move n) := moves.filter fun m => !m.tidies

/-- What the operations of the facade answer in a run, one after the other. -/
def answers (f : MemoryFleet n) : List (Move n) → List ((o : Operation) × o.Result)
  | [] => []
  | .event e :: moves => answers (f.happen e) moves
  | .execute i o :: moves =>
    let rest := answers (f.execute i o).2 moves
    if o = .tidy then rest else ⟨o, o.shown (f.execute i o).1⟩ :: rest

/-- Fleets that are alike answer the same, with the janitor's part or without it. -/
theorem Alike.answers_eq (h : f.Alike f') (moves : List (Move n)) :
    f.answers (withoutTidying moves) = f'.answers moves := by
  induction moves generalizing f f' with
  | nil => rfl
  | cons m moves ih =>
    cases m with
    | event e => exact ih (h.happen e)
    | execute i o =>
      by_cases ho : o = .tidy
      · subst ho
        exact ih (h.tidy i)
      · obtain ⟨halike, hshown⟩ := h.execute i ho
        have hkept : withoutTidying (.execute i o :: moves) =
            .execute i o :: withoutTidying moves := by
          simp [withoutTidying, Move.tidies, ho]
        rw [hkept, Fleet.answers, Fleet.answers, if_neg ho, if_neg ho, hshown, ih halike]

/-- The janitor does not show: runs from one start that differ only in when and where it comes in
between answer the same, up to the numbers of sessions.  It counts the rows whose expiry has come,
and when it runs again at the same time, nothing is left. -/
theorem tidy_invisible (hf : f.Fresh) {moves moves' : List (Move n)}
    (hsame : withoutTidying moves = withoutTidying moves') :
    f.answers moves = f.answers moves' ∧
      ∀ (g : MemoryFleet n) (i j : Fin n),
        (g.execute i .tidy).1 =
          .ok ⟨g.origin.sessions.elapsed g.wall, g.origin.revocations.elapsed g.wall⟩ ∧
        ((g.execute i .tidy).2.execute j .tidy).1 = .ok ⟨0, 0⟩ := by
  refine ⟨?_, fun g i j => ?_⟩
  · rw [← hf.alike.answers_eq moves, hsame, hf.alike.answers_eq moves']
  · rw [execute_tidy, execute_tidy]
    refine ⟨rfl, ?_⟩
    rw [SessionStore.elapsed_live, RevocationStore.elapsed_live]

open Demo

/-- The demo user logs in again after the first session has ended: whether the janitor has removed
it in between does not show. -/
theorem tidy_invisible_demo :
    let minute : Event 2 := .pass (.ofSeconds 61) (.ofSeconds 61)
    let moves := [demoLogin 0, .event minute, demoLogin 1, .execute 0 (.session demoUser)]
    let moves' := [demoLogin 0, .event minute, .execute 1 .tidy, demoLogin 1, .execute 0 .tidy,
      .execute 0 (.session demoUser)]
    withoutTidying moves = withoutTidying moves' ∧ demo.answers moves = demo.answers moves' ∧
      ((demo.play [demoLogin 0, .event minute]).execute 1 .tidy).1 = .ok ⟨1, 0⟩ := by
  intro minute moves moves'
  have hsame : withoutTidying moves = withoutTidying moves' := rfl
  obtain ⟨hanswers, hticks⟩ := tidy_invisible (fresh_start ..) hsame
  refine ⟨hsame, hanswers, ?_⟩
  rw [(hticks _ 1 1).1]
  decide +kernel

end Fleet

end Bearer
