/-
  The cutoff of a user.

  When all tokens of a user are revoked, the record is given a cutoff.  From then
  on it never says an earlier one, and it says one until the last of the tokens
  has expired, whoever else writes or purges.  A cache may go on to say an
  earlier cutoff, but only for as long as that has been cached: what is cached
  anew comes from the record.

  Main statements: `cutOff_of_revokeAll`, `preserved_cutOff`, `preserved_brief`
  and `elapsed_of_verify`.
-/
import Bearer.Proofs.Fleet.Start
import Bearer.Proofs.Store.Revocation

namespace Bearer

open Fleet

variable {n : Nat} {f : MemoryFleet n} {i j : Fin n} {h : History} {r : Request}
variable {o : Operation} {user : UserId} {since last t : Instant} {m : Moment}

namespace Fleet

/-- Whether the record says no cutoff of a user earlier than `since`, and says one until `last`. -/
structure CutOff (f : MemoryFleet n) (user : UserId) (since last : Instant) : Prop where
  reached : since ≤ f.wall
  kept : f.origin.revocations.CutOffSince user since
  lasts : f.wall < last → f.origin.revocations.CutOffUntil user last

/-- Whether an instance finds in its cache, from a moment on, no cutoff of a user that does not
cover a token issued at `t`. -/
def SettledBy (f : MemoryFleet n) (m : Moment) (user : UserId) (t : Instant) (j : Fin n) : Prop :=
  f.Holds (.under (Key.cutoff user) .cutoff fun c deadline =>
    c.revokes t = true ∨ ∃ d ∈ deadline, d ≤ m) j

/-- Whether no cached cutoff of a user outlives the time that cutoffs are cached for. -/
def Brief (f : MemoryFleet n) (user : UserId) : Prop :=
  ∀ j, f.Holds (.under (Key.cutoff user) .cutoff fun _ deadline =>
    ∃ d ∈ deadline, d ≤ f.clock.after Key.cutoffLifetime) j

end Fleet

/-- What an exchange says about a user who is cut off: the record's cutoff is not too early, and
there is one unless it has elapsed. -/
def CutOffFact (user : UserId) (since last wall : Instant) : Exchange → Prop
  | ⟨.revocation (.findCutoff other time), .ok found⟩ =>
    other = user → (∀ revokedBefore, found = some revokedBefore → since ≤ revokedBefore) ∧
      (found = none → time = wall → last ≤ wall)
  | _ => True

/-- What an exchange says about cached cutoffs that are settled. -/
def SettledFact (user : UserId) (t : Instant) : Exchange → Prop
  | ⟨.cache (.fetch .cutoff key), found⟩ =>
    key = Key.cutoff user → ∀ c : Cutoff, found = some c → c.revokes t = true
  | _ => True

/-! ## The cutoff of record -/

theorem cutOff_answer (hc : f.CutOff user since last) (htold : ∀ time, h.Told time → time = f.wall)
    (hconduct : conduct (f.issuer i) o h r) :
    (answer i r f).2.CutOff user since last := by
  refine ⟨?_, ?_, fun hlive => ?_⟩
  · rw [answer_wall]
    exact hc.reached
  · rw [answer_revocations]
    cases r with
    | revocation c =>
      refine RevocationStore.cutOffSince_perform hc.kept fun other revokedBefore _ heq => ?_
      subst heq
      rw [htold revokedBefore hconduct.1]
      exact hc.reached
    | _ => exact hc.kept
  · rw [answer_wall] at hlive
    rw [answer_revocations]
    cases r with
    | revocation c =>
      refine RevocationStore.cutOffUntil_perform (hc.lasts hlive) fun time heq => ?_
      subst heq
      rw [htold time hconduct.1]
      exact hlive
    | _ => exact hc.lasts hlive

theorem cutOffFact_answer (hc : f.CutOff user since last) :
    CutOffFact user since last f.wall ⟨r, (answer i r f).1⟩ := by
  cases r with
  | revocation c =>
    cases c with
    | findCutoff other time =>
      rintro rfl
      refine ⟨fun revokedBefore hfound => RevocationStore.le_of_findCutoff hc.kept hfound, ?_⟩
      rintro hnone rfl
      rw [← Instant.not_lt]
      exact fun hlive => RevocationStore.findCutoff_ne_none (hc.lasts hlive) hlive hnone
    | _ => trivial
  | _ => trivial

theorem cutOff_happen (hc : f.CutOff user since last) (e : Event n) :
    (f.happen e).CutOff user since last := by
  refine ⟨Instant.le_trans hc.reached (happen_wall f e), ?_, fun hlive => ?_⟩
  · rw [happen_origin]
    exact hc.kept
  · rw [happen_origin]
    exact hc.lasts (Instant.lt_of_le_of_lt (happen_wall f e) hlive)

/-- Revoking all tokens of a user cuts the user off until the last of them has expired. -/
theorem cutOff_of_revokeAll (hok : (f.execute i (.revokeAll user)).1 = .ok ()) :
    ∃ last, f.wall.deadline? (f.issuer i).config.longestLifetime = some last ∧
      (f.execute i (.revokeAll user)).2.CutOff user f.wall last := by
  -- While the call runs, the wall clock shows the time that the cutoff states.
  have hwall : Preserved (fun _ _ => True) (fun g : MemoryFleet n => f.wall ≤ g.wall)
      (fun _ _ _ => True) := by
    refine ⟨fun {g i _ r _} _ hle _ _ _ => ⟨?_, trivial⟩, fun {g} e hle => ?_⟩
    · rw [answer_wall]
      exact hle
    · exact Instant.le_trans hle (happen_wall g e)
  obtain ⟨-, h, -, htold, hreason⟩ :=
    hwall.execute (Instant.le_refl _) (i := i) (o := .revokeAll user) trivial
  rw [hok] at hreason
  obtain ⟨time, last, hnow, hdeadline, -⟩ := hreason
  obtain rfl := htold time hnow
  refine ⟨last, hdeadline, ?_⟩
  obtain ⟨-, h', -, htold', hreason', hestablished⟩ := hwall.establish
    (fun g => g.CutOff user f.wall last) (.revocation (.insertCutoff user f.wall last))
    (fun {g i} hle => by
      refine ⟨?_, ?_, fun _ => ?_⟩
      · rw [answer_wall]
        exact hle
      · rw [answer_revocations]
        exact RevocationStore.cutOffSince_insertCutoff _ user f.wall last
      · rw [answer_revocations]
        exact RevocationStore.cutOffUntil_insertCutoff _ user f.wall last)
    (fun _ _ htold hconduct hc => cutOff_answer hc htold hconduct)
    (Instant.le_refl _) (i := i) (o := .revokeAll user) trivial
  rw [hok] at hreason'
  obtain ⟨time, last', hnow', hdeadline', hinsert, -⟩ := hreason'
  obtain rfl := htold' time hnow'
  obtain rfl := Option.some.inj (hdeadline.symm.trans hdeadline')
  exact hestablished ⟨_, hinsert⟩

/-! ## Cached cutoffs -/

theorem shortens_settled (user : UserId) (t : Instant) (m : Moment) :
    (EntryRule.under (Key.cutoff user) .cutoff fun c deadline =>
      c.revokes t = true ∨ ∃ d ∈ deadline, d ≤ m).Shortens := by
  refine EntryRule.shortens_under fun c deadline sooner hsettled hsooner => ?_
  rcases hsettled with hcovers | ⟨d, hd, hle⟩
  · exact Or.inl hcovers
  · exact Or.inr ⟨sooner, rfl, Nat.le_trans (hsooner d hd) hle⟩

/-- What is cached anew is a cutoff of record, which covers the token. -/
theorem settled_answer (hs : f.SettledBy m user t j) (ht : t ≤ since)
    (hfacts : ∀ e ∈ h, CutOffFact user since last f.wall e)
    (hconduct : conduct (f.issuer i) o h r) :
    (answer i r f).2.SettledBy m user t j := by
  refine Holds.answer hs (shortens_settled user t m) ?_
  rintro c rfl
  refine keeps_cutoff hconduct fun revokedBefore time hfind => Or.inl ?_
  have hle : since ≤ revokedBefore := (hfacts _ hfind rfl).1 revokedBefore rfl
  exact decide_eq_true (Instant.le_trans ht hle)

/-- A user who is cut off stays so, and the caches stay settled. -/
theorem preserved_cutOff {user : UserId} {since t : Instant} (ht : t ≤ since) (last : Instant)
    (m : Moment) (j : Fin n) :
    Preserved (fun _ _ => True)
      (fun f : MemoryFleet n => f.CutOff user since last ∧ f.SettledBy m user t j)
      (fun _ => CutOffFact user since last) where
  request _ hinv hfacts htold hconduct :=
    ⟨⟨cutOff_answer hinv.1 htold hconduct, settled_answer hinv.2 ht hfacts hconduct⟩,
      cutOffFact_answer hinv.1⟩
  event e hinv := ⟨cutOff_happen hinv.1 e, Holds.happen hinv.2 e⟩

/-- From the moment on, the instance finds no cutoff that does not cover the token. -/
theorem preserved_settled {user : UserId} {since t : Instant} (ht : t ≤ since) (last : Instant)
    (m : Moment) (j : Fin n) :
    Preserved (fun _ _ => True)
      (fun f : MemoryFleet n => (f.CutOff user since last ∧ f.SettledBy m user t j) ∧ m ≤ f.clock)
      (fun i wall e => CutOffFact user since last wall e ∧ (i = j → SettledFact user t e)) where
  request := by
    intro f i h r o hmay hinv hfacts htold hconduct
    obtain ⟨hcutoff, hfact⟩ := (preserved_cutOff ht last m j).request hmay hinv.1
      (fun e he => (hfacts e he).1) htold hconduct
    refine ⟨⟨hcutoff, ?_⟩, hfact, ?_⟩
    · rw [answer_clock]
      exact hinv.2
    · rintro rfl
      cases r with
      | cache c =>
        cases c with
        | fetch kind key =>
          cases kind with
          | cutoff =>
            rintro rfl c hfound
            obtain ⟨deadline, hsettled, hlive⟩ := Holds.of_fetch hinv.1.2 hfound
            rcases hsettled with hcovers | ⟨d, hd, hle⟩
            · exact hcovers
            · exact absurd (Nat.lt_of_lt_of_le (hlive d hd) hle) (Nat.not_lt.2 hinv.2)
          | _ => trivial
        | _ => trivial
      | _ => trivial
  event e hinv := ⟨(preserved_cutOff ht last m j).event e hinv.1,
    Nat.le_trans hinv.2 (happen_clock _ e)⟩

/-- A token that a cutoff covers is only accepted when the cutoff has elapsed. -/
theorem elapsed_of_verify {token : String} {found : Claims} (ht : found.issuedAt ≤ since)
    (hc : f.CutOff found.user since last) (hs : f.SettledBy m found.user found.issuedAt j)
    (hm : m ≤ f.clock) (hok : (f.execute j (.verify token)).1 = .ok found) : last ≤ f.wall := by
  obtain ⟨-, h, hfacts, htold, hreason⟩ := (preserved_settled ht last m j).execute
    ⟨⟨hc, hs⟩, hm⟩ (i := j) (o := .verify token) trivial
  rw [hok] at hreason
  obtain ⟨-, -, hcutoff⟩ := hreason
  -- Either the cache or the record has said that the user is not cut off.
  rcases hcutoff with ⟨c, hfetch, hmisses⟩ | ⟨time, revokedBefore, hnow, hfind, hmisses⟩
  · have hcovers : c.revokes found.issuedAt = true := (hfacts _ hfetch).2 rfl rfl c rfl
    rw [hmisses] at hcovers
    cases hcovers
  · obtain ⟨hsince, helapsed⟩ := (hfacts _ hfind).1 rfl
    cases revokedBefore with
    | none => exact helapsed rfl (htold time hnow)
    | some revokedBefore =>
      exact absurd (Instant.le_trans ht (hsince revokedBefore rfl)) (hmisses revokedBefore rfl)

/-- Cutoffs are only cached for a short time. -/
theorem preserved_brief (user : UserId) :
    Preserved (fun _ _ => True) (fun f : MemoryFleet n => f.Brief user) (fun _ _ _ => True) where
  request := by
    intro f i h r o _ hbrief _ _ hconduct
    refine ⟨fun j => ?_, trivial⟩
    rw [answer_clock]
    refine (hbrief j).answer (EntryRule.shortens_under fun c deadline sooner hd hsooner => ?_) ?_
    · obtain ⟨d, hd, hle⟩ := hd
      exact ⟨sooner, rfl, Nat.le_trans (hsooner d hd) hle⟩
    · rintro c rfl
      -- A cutoff is cached for at most as long as it may be.
      refine keeps_cutoff hconduct fun revokedBefore time _ => ⟨_, rfl, ?_⟩
      exact Nat.add_le_add_left (Nat.min_le_left ..) _
  event := by
    intro f e hbrief j
    refine ((hbrief j).happen e).mono fun key text deadline hrule hkey c hdecode => ?_
    obtain ⟨d, hd, hle⟩ := hrule hkey c hdecode
    exact ⟨d, hd, Nat.le_trans hle (Nat.add_le_add_right (happen_clock f e) _)⟩

/-- Once cutoffs have been cached for as long as they are, only those of record are left. -/
theorem Fleet.Brief.settled (hb : f.Brief user) (t : Instant) (j : Fin n) :
    f.SettledBy (f.clock.after Key.cutoffLifetime) user t j :=
  (hb j).mono fun _ _ _ hrule hkey c hdecode => Or.inr (hrule hkey c hdecode)

end Bearer
