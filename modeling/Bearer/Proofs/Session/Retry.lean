/-
  Refreshes that fail and are tried again.

  The calls of a refresh to the stores of record may fail, none of them with an
  effect.  A refresh writes twice: first the token goes on record as revoked,
  then the session is given the new one.  If it fails before or at the first
  write, the token can be redeemed as before.  If it fails at the second one, the
  token is revoked already but has not been replaced: it is lost, and whoever
  tries again is told that it is revoked.  Only in the second of its expiry,
  when revocations of it do not count any more, can it still be redeemed.  Where
  no pair can be issued, no attempt ever succeeds.

  Main statements: `course_of_failing` and `refresh_again`.
-/
import Bearer.Proofs.Session.Winner

namespace Bearer

open Fleet

/-- Which requests fail, and with what, after what has been exchanged. -/
abbrev Faults := History → Request → Option AuthError

/-- The reply to a call to the stores of record that fails. -/
def Request.failure? : (r : Request) → AuthError → Option r.Reply
  | .session _, e => some (.error e)
  | .revocation _, e => some (.error e)
  | .user _, e => some (.error e)
  | _, _ => none

/-- The faults of all requests of a kind. -/
def Faults.all (kind : Request → Bool) (e : AuthError) : Faults :=
  fun _ r => if kind r then some e else none

/-- Nothing fails. -/
def Faults.never : Faults := fun _ _ => none

namespace Fleet

variable {n : Nat}

/-- Answers a request and writes down what has been exchanged.  A call to the stores of record may
fail; then it has no effect. -/
def answerFailing (faults : Faults) (i : Fin n) (r : Request) (s : MemoryFleet n × History) :
    r.Reply × MemoryFleet n × History :=
  match (faults s.2 r).bind r.failure? with
  | some reply => (reply, s.1, ⟨r, reply⟩ :: s.2)
  | none => ((answer i r s.1).1, (answer i r s.1).2, ⟨r, (answer i r s.1).1⟩ :: s.2)

/-- What an operation ends with while calls to the stores fail. -/
structure Attempt (n : Nat) (o : Operation) where
  result : o.Result
  fleet : MemoryFleet n
  history : History

/-- An operation while calls to the stores fail. -/
def attempt (f : MemoryFleet n) (faults : Faults) (i : Fin n) (o : Operation) : Attempt n o :=
  let ended := (o.service (f.issuer i)).run.run (answerFailing faults i) (f, [])
  ⟨ended.1, ended.2.1, ended.2.2⟩

end Fleet

variable {n : Nat} {f g : MemoryFleet n} {i j : Fin n} {token : String} {claims : Claims}
variable {faults : Faults} {r : Request} {o : Operation} {e : AuthError}

/-- If nothing fails, an attempt is what an operation always does. -/
theorem attempt_never (f : MemoryFleet n) (i : Fin n) (o : Operation) :
    f.attempt .never i o = ⟨(f.execute i o).1, (f.execute i o).2, f.history i o⟩ := by
  have hrun : ∀ (p : Program o.Result) (g : MemoryFleet n) (h : History),
      p.run (answerFailing .never i) (g, h) =
        ((p.run (answer i) g).1, (p.run (answer i) g).2, p.history (answer i) g h) := by
    intro p
    induction p with
    | done result => exact fun _ _ => rfl
    | ask r next ih => exact fun g h => ih _ _ _
  show (⟨_, _, _⟩ : Attempt n o) = _
  rw [hrun]
  rfl

theorem not_works_of_failure {reply : r.Reply} (h : r.failure? e = some reply) :
    ¬ Exchange.Works ⟨r, reply⟩ := by
  cases r with
  | session c =>
    obtain rfl := Option.some.inj h
    exact id
  | revocation c =>
    obtain rfl := Option.some.inj h
    exact id
  | user c =>
    obtain rfl := Option.some.inj h
    exact id
  | _ => cases h

/-- A request fails as the faults say, or is answered. -/
theorem answerFailing_cases (faults : Faults) (i : Fin n) (r : Request)
    (s : MemoryFleet n × History) :
    (∃ e reply, faults s.2 r = some e ∧ r.failure? e = some reply ∧
      answerFailing faults i r s = (reply, s.1, ⟨r, reply⟩ :: s.2)) ∨
    (faults s.2 r).bind r.failure? = none ∧ answerFailing faults i r s =
      ((answer i r s.1).1, (answer i r s.1).2, ⟨r, (answer i r s.1).1⟩ :: s.2) := by
  unfold answerFailing
  split
  · next reply hreply =>
    obtain ⟨e, hfaults, hfailure⟩ := Option.bind_eq_some_iff.1 hreply
    exact Or.inl ⟨e, reply, hfaults, hfailure, rfl⟩
  · next hnone => exact Or.inr ⟨hnone, rfl⟩

/-- What every answer and every failure keep, an attempt keeps, and it ends as its operation
does. -/
theorem attempt_of (f : MemoryFleet n) (faults : Faults) {post : History → o.Result → Prop}
    {manners : Manners} (hobeys : Service.Obeys manners post [] (o.service (f.issuer i)))
    (inv : History → MemoryFleet n → Prop) (hinv : inv [] f)
    (answered : ∀ {h : History} {g : MemoryFleet n} {r : Request}, inv h g → manners h r →
      (faults h r).bind r.failure? = none →
      inv (⟨r, (answer i r g).1⟩ :: h) (answer i r g).2)
    (failed : ∀ {h : History} {g : MemoryFleet n} {r : Request} {e reply}, inv h g → manners h r →
      faults h r = some e → r.failure? e = some reply → inv (⟨r, reply⟩ :: h) g) :
    inv (f.attempt faults i o).history (f.attempt faults i o).fleet ∧
      post (f.attempt faults i o).history (f.attempt faults i o).result := by
  have hrun := hobeys.run (answerFailing faults i) (fun h s => s.2 = h ∧ inv h s.1) ?_
    (s := (f, [])) ⟨rfl, hinv⟩
  · obtain ⟨⟨hhistory, hended⟩, hpost⟩ := hrun
    rw [← hhistory] at hended hpost
    exact ⟨hended, hpost⟩
  · rintro h ⟨g, written⟩ r ⟨rfl, hg⟩ hmanners
    rcases answerFailing_cases faults i r (g, written) with
      ⟨e, reply, hfaults, hfailure, heq⟩ | ⟨hnone, heq⟩
    · rw [heq]
      exact ⟨rfl, failed hg hmanners hfaults hfailure⟩
    · rw [heq]
      exact ⟨rfl, answered hg hmanners hnone⟩

/-- An attempt to redeem a token is a course of one refresh, in which only what the faults name
fails. -/
theorem course_of_failing (hg : g.Regular) (hat : g.Redeemable i token claims)
    (htimely : g.Timely i) (faults : Faults) :
    let ended := g.attempt faults i (.refresh token)
    Course g token claims (· ∈ ended.history) ended.fleet ∧
      CourseEnding g token claims (· ∈ ended.history) ended.history ended.result ∧
      ∀ x ∈ ended.history, ¬ x.Works → ∃ h e, faults h x.request = some e := by
  intro ended
  have hcons : ∀ (h : History) (x y : Exchange), (y = x ∨ y ∈ h) ↔ y ∈ x :: h :=
    fun h x y => List.mem_cons.symm
  obtain ⟨⟨hcourse, hblame⟩, hending⟩ := attempt_of g faults
    (Operation.redeems (g.issuer i) (.refresh token))
    (fun h f => Course g token claims (· ∈ h) f ∧
      ∀ x ∈ h, ¬ x.Works → ∃ h e, faults h x.request = some e)
    ⟨(course_nil hg hat.borne).congr fun x => by simp, by simp⟩
    (fun {h f r} hinv hmanners _ => by
      rw [← hinv.1.steady.issuer] at hmanners
      refine ⟨(hinv.1.step hg hat (fun _ hx => hx) hmanners).congr (hcons h _),
        List.forall_mem_cons.2 ⟨fun hnot => ?_, hinv.2⟩⟩
      exact absurd (hinv.1.steady.works hg hat hinv.1.facts hmanners) hnot)
    (fun {h f r e reply} hinv hmanners hfaults hfailure => by
      rw [← hinv.1.steady.issuer] at hmanners
      exact ⟨(hinv.1.fail hat hmanners (not_works_of_failure hfailure)).congr (hcons h _),
        List.forall_mem_cons.2 ⟨fun _ => ⟨h, e, hfaults⟩, hinv.2⟩⟩)
  exact ⟨hcourse, hcourse.ending hat htimely (fun _ hx => hx) hending, hblame⟩

/-- What always fails does not work. -/
theorem not_works_of_faults (f : MemoryFleet n) (i : Fin n) (o : Operation) {kind : Request → Bool}
    {e : AuthError} (hcalls : ∀ r, kind r = true → (r.failure? e).isSome = true) :
    ∀ x ∈ (f.attempt (.all kind e) i o).history, kind x.request = true → ¬ x.Works := by
  refine (attempt_of f (.all kind e) (Operation.obeys (f.issuer i) o)
    (fun h _ => ∀ x ∈ h, kind x.request = true → ¬ x.Works) (by simp) ?_ ?_).1
  · intro h g r hh _ hnone
    refine List.forall_mem_cons.2 ⟨fun hkind => ?_, hh⟩
    have hsome := hcalls r hkind
    have hfaults : Faults.all kind e h r = some e := if_pos hkind
    rw [hfaults, Option.bind_some] at hnone
    rw [hnone] at hsome
    cases hsome
  · intro h g r e' reply hh _ _ hfailure
    exact List.forall_mem_cons.2 ⟨fun _ => not_works_of_failure hfailure, hh⟩

/-- What is on record as revoked is refused, as long as it lasts. -/
theorem refresh_of_barred (hb : f.Barred claims) (hlasts : f.wall < claims.expiresAt)
    (hgood : (f.issuer i).config.verify .refresh f.wall token = .ok claims)
    (htimely : f.Timely i) : (f.execute i (.refresh token)).1 = .error .tokenBlacklisted := by
  obtain ⟨-, hfacts, htold, hreason⟩ := ((preserved_barred claims).and preserved_working).perform
    ⟨hb, trivial⟩ (i := i) (o := .refresh token) ⟨trivial, trivial⟩
    ((Operation.redeems (f.issuer i) (.refresh token)).mono (fun _ _ hr => hr.1) fun _ _ hr => hr)
  have hending : RefreshEnding (f.issuer i).config token (f.history i (.refresh token))
    (f.execute i (.refresh token)).1 := hreason
  -- The record does not say that the token is not revoked.
  have huncleared : ∀ found, (f.history i (.refresh token)).Accepted (f.issuer i).config token
      found → ¬ (f.history i (.refresh token)).Cleared found := by
    rintro found haccepted ⟨⟨time, hnow, hfound⟩, -⟩
    obtain rfl := TokenConfig.claims_unique haccepted.peek (TokenConfig.verify_eq_ok_iff.1 hgood).1
    exact Instant.not_le.2 hlasts ((hfacts _ hfound).1 rfl (htold time hnow))
  generalize (f.execute i (.refresh token)).1 = result at hending ⊢
  cases hending with
  | rejected _ told verdict =>
    rw [htold _ told, hgood] at verdict
    cases verdict
  | refused _ _ denied =>
    rcases denied with hfailed | ⟨rfl, -⟩
    · exact absurd hfailed (not_failed (fun x hx => (hfacts x hx).2) _)
    · rfl
  | mistimed mistimed =>
    exact absurd mistimed (History.not_mistimed htold htimely.deadlines htimely.lifetime)
  | unseen _ accepted cleared _ => exact absurd cleared (huncleared _ accepted)
  | unheld _ accepted cleared _ => exact absurd cleared (huncleared _ accepted)
  | foreign _ accepted cleared _ _ => exact absurd cleared (huncleared _ accepted)
  | unlisted _ accepted cleared _ => exact absurd cleared (huncleared _ accepted)
  | unwritten _ accepted cleared _ _ => exact absurd cleared (huncleared _ accepted)
  | outrun _ accepted cleared _ _ => exact absurd cleared (huncleared _ accepted)
  | redeemed accepted cleared _ _ _ _ _ => exact absurd cleared (huncleared _ accepted)

/-- An attempt that fails has replaced nothing, and has put the token on record as revoked only if
the session could not be written. -/
theorem of_failing (hg : g.Regular) (hat : g.Redeemable i token claims) (htimely : g.Timely i)
    (hfailed : (g.attempt faults i (.refresh token)).result = .error e) :
    let h := (g.attempt faults i (.refresh token)).history
    h.Vain ∧ (∃ x ∈ h, ¬ x.Works) ∧
      (⟨.revocation (.insert claims.tokenId claims.expiresAt), .ok ()⟩ ∈ h ↔ h.Unwritten) := by
  intro h
  obtain ⟨-, hending, -⟩ := course_of_failing hg hat htimely faults
  generalize (g.attempt faults i (.refresh token)).result = result at hfailed hending
  subst hfailed
  cases hending with
  | refused idle listed _ => exact absurd (idle _ listed) id
  | outrun vain replaced =>
    obtain ⟨x, hx, hreplaces⟩ := replaced
    exact absurd hreplaces (vain x hx)
  | failed vain failed unwritten => exact ⟨vain, failed, unwritten⟩

/-- A token that has not gone on record as revoked for some time can still be redeemed. -/
theorem redeemable_of_failing (hg : g.Regular) (hat : g.Redeemable i token claims)
    (htimely : g.Timely i) (hfailed : (g.attempt faults i (.refresh token)).result = .error e)
    (hkept : ¬ ((g.attempt faults i (.refresh token)).history.Unwritten ∧
      g.wall < claims.expiresAt)) (hat' : g.Redeemable j token claims) (htimely' : g.Timely j) :
    let ended := g.attempt faults i (.refresh token)
    ended.fleet.Redeemable j token claims ∧
      ∃ pair, (ended.fleet.execute j (.refresh token)).1 = .ok pair := by
  intro ended
  obtain ⟨hcourse, -, -⟩ := course_of_failing hg hat htimely faults
  obtain ⟨hvain, -, hlisted⟩ := of_failing hg hat htimely hfailed
  have hlate : ⟨.revocation (.insert claims.tokenId claims.expiresAt), .ok ()⟩ ∈ ended.history →
      claims.expiresAt ≤ g.wall :=
    fun hx => Instant.not_lt.1 fun hlasts => hkept ⟨hlisted.1 hx, hlasts⟩
  have hredeemable := hcourse.redeemable hat' hlate hvain
  exact ⟨hredeemable, Parallel.refresh_ok (hcourse.regular hg hat.borne hvain) hredeemable
    (htimely'.congr hcourse.steady.wall (hcourse.steady.issuer j))⟩

/-- A token that has gone on record as revoked is lost, even if the session still holds it. -/
theorem lost_of_failing (hg : g.Regular) (hat : g.Redeemable i token claims)
    (htimely : g.Timely i) (hfailed : (g.attempt faults i (.refresh token)).result = .error e)
    (hunwritten : (g.attempt faults i (.refresh token)).history.Unwritten)
    (hlasts : g.wall < claims.expiresAt) (hat' : g.Redeemable j token claims)
    (htimely' : g.Timely j) :
    ((g.attempt faults i (.refresh token)).fleet.execute j (.refresh token)).1 =
      .error .tokenBlacklisted := by
  obtain ⟨hcourse, -, -⟩ := course_of_failing hg hat htimely faults
  obtain ⟨-, -, hlisted⟩ := of_failing hg hat htimely hfailed
  refine refresh_of_barred (hcourse.barred (hlisted.2 hunwritten)) ?_ ?_
    (htimely'.congr hcourse.steady.wall (hcourse.steady.issuer j))
  · rw [hcourse.steady.wall]
    exact hlasts
  · rw [hcourse.steady.issuer, hcourse.steady.wall]
    exact hat'.good

/-- Where no pair can be issued, a refresh fails though no call to the stores does, and so does the
next one. -/
theorem failing_of_untimely (huntimely : ¬ g.Timely i) (token : String) :
    let ended := g.attempt .never i (.refresh token)
    (∃ e, ended.result = .error e) ∧
      ∃ e, (ended.fleet.execute i (.refresh token)).1 = .error e := by
  intro ended
  have hended : ended = ⟨_, _, _⟩ := attempt_never g i (.refresh token)
  rw [hended]
  refine ⟨refresh_untimely huntimely token, refresh_untimely (fun htimely => huntimely ?_) token⟩
  exact htimely.congr (execute_wall ..).symm (execute_issuer ..).symm

/-! ## Attempts to try -/

/-- Whether a request puts a token on record as revoked. -/
def Request.lists : Request → Bool
  | .revocation (.insert ..) => true
  | _ => false

/-- Whether a request writes a token into a session. -/
def Request.rotates : Request → Bool
  | .session (.updateToken ..) => true
  | _ => false

theorem failure?_of_lists (e : AuthError) (h : r.lists = true) : (r.failure? e).isSome = true := by
  cases r with
  | revocation c => rfl
  | _ => cases h

theorem failure?_of_rotates (e : AuthError) (h : r.rotates = true) :
    (r.failure? e).isSome = true := by
  cases r with
  | session c => rfl
  | _ => cases h

/-- A refresh fails if its token cannot be put on record as revoked, and does not go on to the
session. -/
theorem kept_of_lists (hg : g.Regular) (hat : g.Redeemable i token claims) (htimely : g.Timely i)
    (e : AuthError) :
    (∃ e', (g.attempt (.all Request.lists e) i (.refresh token)).result = .error e') ∧
      ¬ (g.attempt (.all Request.lists e) i (.refresh token)).history.Unwritten := by
  obtain ⟨-, hending, -⟩ := course_of_failing hg hat htimely (.all Request.lists e)
  have hfails := not_works_of_faults g i (.refresh token) fun _ => failure?_of_lists e
  have herror : ∃ e', (g.attempt (.all Request.lists e) i (.refresh token)).result =
      .error e' := by
    generalize (g.attempt (.all Request.lists e) i (.refresh token)).result = result at hending ⊢
    cases hending with
    | redeemed listed _ => exact absurd trivial (hfails _ listed rfl)
    | _ => exact ⟨_, rfl⟩
  refine ⟨herror, fun hunwritten => ?_⟩
  obtain ⟨e', hresult⟩ := herror
  obtain ⟨-, -, hlisted⟩ := of_failing hg hat htimely hresult
  exact absurd trivial (hfails _ (hlisted.2 hunwritten) rfl)

/-- A refresh fails if the session cannot be written, and has got as far as that. -/
theorem unwritten_of_rotates (hg : g.Regular) (hat : g.Redeemable i token claims)
    (htimely : g.Timely i) (e : AuthError) :
    (∃ e', (g.attempt (.all Request.rotates e) i (.refresh token)).result = .error e') ∧
      (g.attempt (.all Request.rotates e) i (.refresh token)).history.Unwritten := by
  obtain ⟨-, hending, hblame⟩ := course_of_failing hg hat htimely (.all Request.rotates e)
  have hfails := not_works_of_faults g i (.refresh token) fun _ => failure?_of_rotates e
  have herror : ∃ e', (g.attempt (.all Request.rotates e) i (.refresh token)).result =
      .error e' := by
    generalize (g.attempt (.all Request.rotates e) i (.refresh token)).result = result at hending ⊢
    cases hending with
    | redeemed _ won => exact absurd trivial (hfails _ won rfl)
    | _ => exact ⟨_, rfl⟩
  refine ⟨herror, ?_⟩
  obtain ⟨e', hresult⟩ := herror
  obtain ⟨-, ⟨x, hx, hnot⟩, -⟩ := of_failing hg hat htimely hresult
  -- What has failed can only be the call that the faults name.
  obtain ⟨h, e'', hfault⟩ := hblame x hx hnot
  have hrotates : x.request.rotates = true := by
    unfold Faults.all at hfault
    split at hfault
    · assumption
    · cases hfault
  rcases Exchange.not_works_cases hnot with ⟨c, e, rfl⟩ | ⟨c, e, rfl⟩ | ⟨c, e, rfl⟩
  · cases c with
    | updateToken user expected new expiresAt => exact ⟨user, expected, new, expiresAt, e, hx⟩
    | _ => cases hrotates
  · cases hrotates
  · cases hrotates

open Fleet.Demo

/-- Whether, after a login at the first demo instance, a refresh at the second one fails though no
call to the stores does, and fails again, though the token can be redeemed there. -/
def FailsTwice (issuer : Issuer) : Prop :=
  let g := ((Parallel.demoMixed issuer).execute 0 (.login "demo" "demo")).2
  let ended := g.attempt .never 1 (.refresh demoRefreshToken)
  g.Regular ∧ g.Redeemable 1 demoRefreshToken demoRefreshClaims ∧
    (∃ e, ended.result = .error e) ∧
    ∃ e, (ended.fleet.execute 1 (.refresh demoRefreshToken)).1 = .error e

theorem Parallel.Barren.failsTwice {issuer : Issuer} (hb : Parallel.Barren issuer) :
    FailsTwice issuer := by
  obtain ⟨hredeemable, huntimely⟩ := hb.redeemable
  exact ⟨(Parallel.fresh_demoMixed issuer).regular_execute _ _, hredeemable,
    failing_of_untimely huntimely _⟩

/-! ## Trying again -/

/-- When a refresh of a token that can be redeemed fails because calls to the stores of record do,
the token can still be redeemed wherever it could be before, and trying again succeeds; unless what
has failed is to write the new token into the session before the old one expires.  Then it is lost:
trying again ends with the answer that it is revoked. -/
theorem refresh_again (hg : g.Regular) (hat : g.Redeemable i token claims) (htimely : g.Timely i)
    (faults : Faults) :
    let ended := g.attempt faults i (.refresh token)
    ∀ e, ended.result = .error e → ∀ j, g.Redeemable j token claims → g.Timely j →
      (¬ (ended.history.Unwritten ∧ g.wall < claims.expiresAt) →
        ended.fleet.Redeemable j token claims ∧
          ∃ pair, (ended.fleet.execute j (.refresh token)).1 = .ok pair) ∧
      (ended.history.Unwritten ∧ g.wall < claims.expiresAt →
        (ended.fleet.execute j (.refresh token)).1 = .error .tokenBlacklisted) := by
  intro ended e hfailed j hat' htimely'
  refine ⟨fun hkept => ?_, fun ⟨hunwritten, hlasts⟩ => ?_⟩
  · exact redeemable_of_failing hg hat htimely hfailed hkept hat' htimely'
  · exact lost_of_failing hg hat htimely hfailed hunwritten hlasts hat' htimely'

/-- When a token cannot be put on record as revoked, a refresh at the first demo instance fails, and
another one at the second instance succeeds. -/
theorem refresh_again_demo :
    let g := (demo.execute 0 (.login "demo" "demo")).2
    let ended := g.attempt (.all Request.lists (.persistence .injected)) 0
      (.refresh demoRefreshToken)
    (∃ e, ended.result = .error e) ∧
      ∃ pair, (ended.fleet.execute 1 (.refresh demoRefreshToken)).1 = .ok pair := by
  intro g ended
  have hfresh : demo.Fresh := fresh_start ..
  have hregular : g.Regular := hfresh.regular_execute ..
  have hat : ∀ i : Fin 2, g.Redeemable i demoRefreshToken demoRefreshClaims :=
    Parallel.redeemable_demo
  have htimely : ∀ i : Fin 2, g.Timely i :=
    fun i => (Parallel.timely_demo i).congr (execute_wall ..) (execute_issuer ..)
  obtain ⟨⟨e, hresult⟩, hkept⟩ := kept_of_lists hregular (hat 0) (htimely 0)
    (.persistence .injected)
  have hagain := refresh_again hregular (hat 0) (htimely 0)
    (.all Request.lists (.persistence .injected)) e hresult 1 (hat 1) (htimely 1)
  exact ⟨⟨e, hresult⟩, (hagain.1 fun hlost => hkept hlost.1).2⟩

/-- When the session cannot be written, the token is lost; and where no pair can be issued,
refreshes fail time and again. -/
theorem refresh_loses_token :
    (let g := (demo.execute 0 (.login "demo" "demo")).2
      let ended := g.attempt (.all Request.rotates (.persistence .injected)) 0
        (.refresh demoRefreshToken)
      g.Regular ∧ g.Redeemable 0 demoRefreshToken demoRefreshClaims ∧ g.Timely 0 ∧
        (∃ e, ended.result = .error e) ∧
        (ended.fleet.execute 0 (.refresh demoRefreshToken)).1 = .error .tokenBlacklisted) ∧
      FailsTwice hastyIssuer ∧ FailsTwice Parallel.endlessIssuer := by
  refine ⟨?_, Parallel.barren_hastyIssuer.failsTwice, Parallel.barren_endlessIssuer.failsTwice⟩
  intro g ended
  have hfresh : demo.Fresh := fresh_start ..
  have hregular : g.Regular := hfresh.regular_execute ..
  have hat : g.Redeemable 0 demoRefreshToken demoRefreshClaims := Parallel.redeemable_demo 0
  have htimely : g.Timely 0 :=
    (Parallel.timely_demo 0).congr (execute_wall ..) (execute_issuer ..)
  obtain ⟨⟨e, hresult⟩, hunwritten⟩ := unwritten_of_rotates hregular hat htimely
    (.persistence .injected)
  exact ⟨hregular, hat, htimely, ⟨e, hresult⟩,
    lost_of_failing hregular hat htimely hresult hunwritten (by decide) hat htimely⟩

end Bearer
