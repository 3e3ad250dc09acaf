/-
  Refreshes that race for one token.

  Several calls redeem one refresh token at the same time, at instances that
  share their stores.  A call that gets as far as putting the token on record as
  revoked goes on to replace it in the session, and whoever comes first does
  so.  Until then nothing but such a call speaks against the token, so the calls
  cannot all turn each other away: exactly one of them wins.  Only an instance
  that cannot issue a pair, as its tokens would outlive the calendar or live for
  no time, never lets anyone win.

  Main definition: `Race`, what holds at every turn of a race.  Main statement:
  `one_winner`.
-/
import Bearer.Proofs.Fleet.Failures
import Bearer.Proofs.Session.Course

namespace Bearer

open Fleet

/-- Whether a turn may be one of a race that begins at a fleet: refreshes of one token are called at
instances where it can be redeemed, their requests are answered, and no time passes. -/
def Turn.Races {n : Nat} (g : MemoryFleet n) (token : String) (claims : Claims) : Turn n → Prop
  | .start i o => o = .refresh token ∧ g.Redeemable i token claims ∧ g.Timely i
  | .step _ => True
  | .event e => e.Timeless

namespace Parallel

variable {n : Nat} {g : MemoryFleet n} {i : Fin n} {h : History} {token : String} {claims : Claims}
variable {s : Parallel n} {t : Turn n} {k m : Nat} {c : Call n} {r : Request}
variable {next : r.Reply → Program c.operation.Result} {new : String} {expiresAt : Instant}

/-! ## The race -/

/-- What holds once some call has replaced the token in the session: nobody replaces the new one in
turn. -/
structure Won (token : String) (claims : Claims) (s : Parallel n) (k : Nat) (new : String)
    (expiresAt : Instant) : Prop where
  written : ∃ c, s.calls[k]? = some c ∧
    ⟨.session (.updateToken claims.user (some token) new expiresAt), .ok true⟩ ∈ c.history
  only : ∀ (m : Nat) (c : Call n), s.calls[m]? = some c → ∀ x ∈ c.history, x.Replaces → m = k ∧
    x = ⟨.session (.updateToken claims.user (some token) new expiresAt), .ok true⟩
  row : ∃ row, s.row? claims.user = some row ∧ row.refreshToken = new ∧ row.expiresAt = expiresAt
  changed : new ≠ token

/-- What holds at every turn of a race for a token that has begun at a fleet. -/
structure Race (g : MemoryFleet n) (token : String) (claims : Claims) (s : Parallel n) : Prop where
  manners : s.Abides redeeming Operation.Ending
  calls : ∀ (k : Nat) (c : Call n), s.calls[k]? = some c →
    c.operation = .refresh token ∧ g.Redeemable c.place token claims ∧ g.Timely c.place
  course : Course g token claims s.Said s.fleet
  works : ∀ x, s.Said x → x.Works
  winner : (∀ x, s.Said x → ¬ x.Replaces) ∨ ∃ k new expiresAt, Won token claims s k new expiresAt

theorem race_idle (hg : g.Regular) (hborne : g.Bears claims.user token) :
    Race g token claims (idle g) where
  manners := abides_idle g
  calls k c hc := by cases hc
  course := (course_nil hg hborne).congr fun x => (iff_false_intro (not_said_idle g x)).symm
  works x hx := absurd hx (not_said_idle g x)
  winner := Or.inl fun x hx => absurd hx (not_said_idle g x)

/-- What a call of a race asks is a request of a refresh. -/
theorem Race.asked (hr : Race g token claims s) (hasks : s.Asks k c r next) :
    g.Redeemable c.place token claims ∧
      redeeming (s.fleet.issuer c.place) (.refresh token) c.history r := by
  obtain ⟨hoperation, hat, -⟩ := hr.calls k c hasks.1
  refine ⟨hat, ?_⟩
  rw [← hoperation]
  exact hr.manners.asks hasks

/-- Once the token has been replaced, nothing is written in its place. -/
theorem Won.step (hw : Won token claims s m new expiresAt) (hr : Race g token claims s)
    (hasks : s.Asks k c r next) : Won token claims (s.turn (.step k)) m new expiresAt := by
  obtain ⟨hat, hconduct, hredeems⟩ := hr.asked hasks
  have hvain : ¬ Exchange.Replaces ⟨r, (answer c.place r s.fleet).1⟩ := by
    intro hreplaces
    obtain ⟨-, -, row, -, -, hrow, hold, -⟩ :=
      of_replaces (hr.course.steady.peek hat) hconduct hreplaces
    obtain ⟨row', hrow', hnew, -⟩ := hw.row
    obtain rfl := Option.some.inj (hrow.symm.trans hrow')
    exact hw.changed (hnew.symm.trans hold)
  refine ⟨?_, ?_, ?_, hw.changed⟩
  · obtain ⟨c', hc', hx⟩ := hw.written
    obtain ⟨c'', hc'', hgrown⟩ := exists_call_turn hc' (.step k)
    exact ⟨c'', hc'', hgrown _ hx⟩
  · rw [turn_step hasks]
    intro l c' hc' x hx hreplaces
    rcases getElem?_of_set hc' with ⟨rfl, rfl⟩ | ⟨-, hold⟩
    · rcases List.mem_cons.1 hx with rfl | hx
      · exact absurd hreplaces hvain
      · exact hw.only k c hasks.1 x hx hreplaces
    · exact hw.only l c' hold x hx hreplaces
  · unfold row?
    rw [turn_step hasks]
    dsimp only
    rw [rows_answer (hredeems token rfl) hvain]
    exact hw.row

/-- The first call to write in place of the token wins. -/
theorem Race.won_step (hr : Race g token claims s) (hg : g.Regular)
    (hvain : ∀ x, s.Said x → ¬ x.Replaces) (hasks : s.Asks k c r next)
    (hreplaces : Exchange.Replaces ⟨r, (answer c.place r s.fleet).1⟩) :
    ∃ new expiresAt, Won token claims (s.turn (.step k)) k new expiresAt := by
  obtain ⟨hat, hconduct, -⟩ := hr.asked hasks
  obtain ⟨new, expiresAt, row, hexchange, hissued, -, -, hrow⟩ :=
    of_replaces (hr.course.steady.peek hat) hconduct hreplaces
  have hlength : k < s.calls.length := (List.getElem?_eq_some_iff.1 hasks.1).1
  refine ⟨new, expiresAt, ?_, ?_, ?_, ?_⟩
  · rw [turn_step hasks]
    refine ⟨_, List.getElem?_set_self hlength, ?_⟩
    rw [← hexchange]
    exact List.mem_cons_self ..
  · rw [turn_step hasks]
    intro l c' hc' x hx hwritten
    rcases getElem?_of_set hc' with ⟨rfl, rfl⟩ | ⟨-, hold⟩
    · rcases List.mem_cons.1 hx with rfl | hx
      · exact ⟨rfl, hexchange⟩
      · exact absurd hwritten (hvain x ⟨k, c, hasks.1, hx⟩)
    · exact absurd hwritten (hvain x ⟨l, c', hold, hx⟩)
  · unfold row?
    rw [turn_step hasks]
    exact ⟨_, hrow, rfl, rfl⟩
  · -- The new token is no one's yet, and the old one has been somebody's.
    obtain ⟨row', hrow', htoken⟩ := hat.borne
    have hold := hg.unforeseen _ row' (SessionStore.findByUser_eq_some_iff.1 hrow').1
    rw [htoken] at hold
    exact ne_of_issued (fun x hx => (hr.course.facts x (hasks.said x hx)).drawn _ hold) hissued

/-- A step of a race is one. -/
theorem Race.step (hr : Race g token claims s) (hg : g.Regular) (hasks : s.Asks k c r next) :
    Race g token claims (s.turn (.step k)) where
  manners := hr.manners.turn Operation.redeems _
  calls := by
    rw [turn_step hasks]
    intro l c' hc'
    rcases getElem?_of_set hc' with ⟨rfl, rfl⟩ | ⟨-, hold⟩
    · exact hr.calls k c hasks.1
    · exact hr.calls l c' hold
  course := by
    obtain ⟨hat, hmanners⟩ := hr.asked hasks
    have hstep := (hr.course.step hg hat hasks.said hmanners).congr
      fun x => (said_step_iff hasks x).symm
    rw [turn_step hasks] at hstep ⊢
    exact hstep
  works x hx := by
    obtain ⟨hat, hmanners⟩ := hr.asked hasks
    rcases (said_step_iff hasks x).1 hx with rfl | hold
    · exact hr.course.steady.works hg hat (fun y hy => hr.course.facts y (hasks.said y hy)) hmanners
    · exact hr.works x hold
  winner := by
    rcases hr.winner with hvain | ⟨m, new, expiresAt, hwon⟩
    · by_cases hreplaces : Exchange.Replaces ⟨r, (answer c.place r s.fleet).1⟩
      · exact Or.inr ⟨k, hr.won_step hg hvain hasks hreplaces⟩
      · refine Or.inl fun x hx => ?_
        rcases (said_step_iff hasks x).1 hx with rfl | hold
        · exact hreplaces
        · exact hvain x hold
    · exact Or.inr ⟨m, new, expiresAt, hwon.step hr hasks⟩

theorem Won.start (hw : Won token claims s m new expiresAt) (i : Fin n) (o : Operation) :
    Won token claims (s.turn (.start i o)) m new expiresAt := by
  refine ⟨?_, fun l c' hc' x hx hreplaces => ?_, hw.row, hw.changed⟩
  · obtain ⟨c', hc', hx⟩ := hw.written
    obtain ⟨c'', hc'', hgrown⟩ := exists_call_turn hc' (.start i o)
    exact ⟨c'', hc'', hgrown _ hx⟩
  · rcases getElem?_of_concat hc' with ⟨-, rfl⟩ | hold
    · cases hx
    · exact hw.only l c' hold x hx hreplaces

/-- Another refresh joins the race. -/
theorem Race.start (hr : Race g token claims s) (hat : g.Redeemable i token claims)
    (htimely : g.Timely i) : Race g token claims (s.turn (.start i (.refresh token))) where
  manners := hr.manners.turn Operation.redeems _
  calls l c hc := by
    rcases getElem?_of_concat hc with ⟨-, rfl⟩ | hold
    · exact ⟨rfl, hat, htimely⟩
    · exact hr.calls l c hold
  course := hr.course.congr fun x => (said_start_iff i _ x).symm
  works x hx := hr.works x ((said_start_iff i _ x).1 hx)
  winner := by
    rcases hr.winner with hvain | ⟨m, new, expiresAt, hwon⟩
    · exact Or.inl fun x hx => hvain x ((said_start_iff i _ x).1 hx)
    · exact Or.inr ⟨m, new, expiresAt, hwon.start i _⟩

/-- An outage or a sweep makes no difference. -/
theorem Race.event (hr : Race g token claims s) {e : Event n} (he : e.Timeless) :
    Race g token claims (s.turn (.event e)) where
  manners := hr.manners.turn Operation.redeems _
  calls := hr.calls
  course := hr.course.happen he
  works := hr.works
  winner := by
    rcases hr.winner with hvain | ⟨m, new, expiresAt, hwon⟩
    · exact Or.inl hvain
    · refine Or.inr ⟨m, new, expiresAt, hwon.written, hwon.only, ?_, hwon.changed⟩
      show ∃ row, (s.fleet.happen e).origin.sessions.rows.get? claims.user = some row ∧ _
      rw [happen_origin]
      exact hwon.row

theorem Race.turn (hr : Race g token claims s) (hg : g.Regular) (ht : t.Races g token claims) :
    Race g token claims (s.turn t) := by
  rcases turn_cases s t with ⟨i, o, rfl⟩ | ⟨e, rfl⟩ | ⟨k, c, r, next, rfl, hasks⟩ | hidle
  · obtain ⟨rfl, hat, htimely⟩ := ht
    exact hr.start hat htimely
  · exact hr.event ht
  · exact hr.step hg hasks
  · rw [hidle]
    exact hr

theorem Race.run (hr : Race g token claims s) (hg : g.Regular) {turns : List (Turn n)}
    (hturns : ∀ t ∈ turns, t.Races g token claims) : Race g token claims (s.run turns) := by
  induction turns generalizing s with
  | nil => exact hr
  | cons t turns ih =>
    obtain ⟨hfirst, hrest⟩ := List.forall_mem_cons.1 hturns
    exact ih (hr.turn hg hfirst) hrest

/-! ## How it ends -/

/-- A call of a race that has ended is a refresh with a result. -/
theorem Race.exists_result (hr : Race g token claims s) (hc : s.calls[k]? = some c)
    (hdone : c.isDone = true) : ∃ i h result, c = ⟨i, .refresh token, h, .done result⟩ := by
  obtain ⟨hoperation, -⟩ := hr.calls k c hc
  obtain ⟨i, o, h, rest⟩ := c
  obtain rfl : o = .refresh token := hoperation
  cases rest with
  | done result => exact ⟨i, h, result, rfl⟩
  | ask r next => cases hdone

/-- A call of a race that has ended has replaced the token, or it has come too late. -/
theorem Race.ending (hr : Race g token claims s) {result : Except AuthError TokenPair}
    (hc : s.calls[k]? = some ⟨i, .refresh token, h, .done result⟩) :
    (∀ x ∈ h, x.Works) ∧ CourseEnding g token claims s.Said h result := by
  obtain ⟨-, hat, htimely⟩ := hr.calls k _ hc
  have hsaid : ∀ x ∈ h, s.Said x := fun x hx => ⟨k, _, hc, hx⟩
  have hending : RefreshEnding (s.fleet.issuer i).config token h result := hr.manners.ended hc rfl
  rw [hr.course.steady.issuer] at hending
  exact ⟨fun x hx => hr.works x (hsaid x hx), hr.course.ending hat htimely hsaid hending⟩

/-- The calls of a race do not all turn each other away. -/
theorem Race.exists_won (hr : Race g token claims s) (hcalls : s.calls ≠ [])
    (hdone : ∀ c ∈ s.calls, c.isDone = true) :
    ∃ k new expiresAt, Won token claims s k new expiresAt := by
  rcases hr.winner with hvain | hwon
  · -- As long as the session holds the token, calls are only stopped by one that does not look.
    have hstopped : ∀ (k : Nat) (c : Call n), s.calls[k]? = some c → c.history.Idle ∧
        s.Said ⟨.revocation (.insert claims.tokenId claims.expiresAt), .ok ()⟩ := by
      intro k c hc
      obtain ⟨i, h, result, rfl⟩ := hr.exists_result hc (hdone c (List.mem_of_getElem? hc))
      obtain ⟨hworks, hending⟩ := hr.ending hc
      cases hending with
      | redeemed _ won => exact absurd trivial (hvain _ ⟨k, _, hc, won⟩)
      | refused idle listed _ => exact ⟨idle, listed⟩
      | outrun _ replaced =>
        obtain ⟨x, hx, hreplaces⟩ := replaced
        exact absurd hreplaces (hvain x hx)
      | failed _ failed _ =>
        obtain ⟨x, hx, hfailed⟩ := failed
        exact absurd (hworks x hx) hfailed
    obtain ⟨c, rest, hsplit⟩ := List.exists_cons_of_ne_nil hcalls
    obtain ⟨-, m, c', hc', hlists⟩ := hstopped 0 c (by rw [hsplit]; rfl)
    exact absurd ((hstopped m c' hc').1 _ hlists) id
  · exact hwon

/-- When all calls of a race have ended, one has succeeded, and its token is in the session; the
other ones have come too late. -/
theorem Race.result (hr : Race g token claims s) (hcalls : s.calls ≠ [])
    (hdone : ∀ c ∈ s.calls, c.isDone = true) :
    ∃ k i h pair, s.calls[k]? = some ⟨i, .refresh token, h, .done (.ok pair)⟩ ∧
      (∀ (m : Nat) (c : Call n), s.calls[m]? = some c → m ≠ k → ∃ j h' e,
        c = ⟨j, .refresh token, h', .done (.error e)⟩ ∧
          (e = .tokenBlacklisted ∨ e = .sessionNotFound)) ∧
      ∃ row, s.row? claims.user = some row ∧ row.refreshToken = pair.refresh ∧
        row.expiresAt = pair.refreshExpiresAt := by
  obtain ⟨k, new, expiresAt, hwon⟩ := hr.exists_won hcalls hdone
  obtain ⟨c, hc, hwritten⟩ := hwon.written
  obtain ⟨i, h, result, rfl⟩ := hr.exists_result hc (hdone c (List.mem_of_getElem? hc))
  -- The call that has written is the one that succeeds.
  have hpair : ∃ pair, result = .ok pair ∧ pair.refresh = new ∧
      pair.refreshExpiresAt = expiresAt := by
    cases (hr.ending hc).2 with
    | @redeemed pair _ won =>
      have hsame := (hwon.only k _ hc _ won trivial).2
      simp only [Exchange.mk.injEq, Request.session.injEq, SessionCall.updateToken.injEq] at hsame
      exact ⟨pair, rfl, hsame.1.2.2.1, hsame.1.2.2.2⟩
    | refused idle _ _ => exact absurd (idle _ hwritten) id
    | outrun vain _ => exact absurd trivial (vain _ hwritten)
    | failed vain _ _ => exact absurd trivial (vain _ hwritten)
  obtain ⟨pair, rfl, rfl, rfl⟩ := hpair
  refine ⟨k, i, h, pair, hc, fun m c' hc' hne => ?_, hwon.row⟩
  obtain ⟨j, h', result, rfl⟩ := hr.exists_result hc' (hdone c' (List.mem_of_getElem? hc'))
  obtain ⟨hworks, hending⟩ := hr.ending hc'
  cases hending with
  | redeemed _ won => exact absurd (hwon.only m _ hc' _ won trivial).1 hne
  | refused _ _ _ => exact ⟨j, h', _, rfl, Or.inl rfl⟩
  | outrun _ _ => exact ⟨j, h', _, rfl, Or.inr rfl⟩
  | failed _ failed _ =>
    obtain ⟨x, hx, hfailed⟩ := failed
    exact absurd (hworks x hx) hfailed

/-- A refresh that nothing comes between wins. -/
theorem refresh_ok (hg : g.Regular) (hat : g.Redeemable i token claims) (htimely : g.Timely i) :
    ∃ pair, (g.execute i (.refresh token)).1 = .ok pair := by
  obtain ⟨m, halone⟩ := run_alone g i (.refresh token)
  have hturns : ∀ t ∈ (.start i (.refresh token) :: List.replicate m (.step 0) : List (Turn n)),
      t.Races g token claims := by
    refine List.forall_mem_cons.2 ⟨⟨rfl, hat, htimely⟩, fun t ht => ?_⟩
    rw [List.eq_of_mem_replicate ht]
    trivial
  have hrace := (race_idle hg hat.borne).run hg hturns
  rw [halone] at hrace
  obtain ⟨k, _, _, pair, hwon, -⟩ := hrace.result (by simp) (by simp [Call.isDone])
  obtain ⟨_, heq⟩ := List.getElem?_eq_some_iff.1 hwon
  rw [List.getElem_singleton] at heq
  generalize (g.execute i (.refresh token)).1 = result at heq
  cases heq
  exact ⟨pair, rfl⟩

/-- Where no pair can be issued, a refresh that runs alone does not win. -/
theorem run_untimely (huntimely : ¬ g.Timely i) (token : String) : ∃ steps h e,
    ((idle g).run (.start i (.refresh token) :: List.replicate steps (.step 0))).calls =
      [⟨i, .refresh token, h, .done (.error e)⟩] := by
  obtain ⟨steps, halone⟩ := run_alone g i (.refresh token)
  obtain ⟨e, hresult⟩ := refresh_untimely huntimely token
  refine ⟨steps, g.history i (.refresh token), e, ?_⟩
  rw [halone, hresult]

/-! ## Demo fleets -/

open Fleet.Demo

/-- After a login at the first demo instance, both instances can redeem the refresh token. -/
theorem redeemable_demo (i : Fin 2) :
    (demo.execute 0 (.login "demo" "demo")).2.Redeemable i demoRefreshToken demoRefreshClaims := by
  refine (fresh_start ..).redeemable_login "demo" "demo" ?_ ⟨_, rfl, rfl⟩
  exact TokenConfig.verify_eq_ok_iff.2
    ⟨peek_demoToken .refresh (by decide) (by decide) (by decide) 2 i, rfl, by decide⟩

theorem timely_demo (i : Fin 2) : demo.Timely i := by
  have hissuer : demo.issuer i = demoIssuer := issuer_start ..
  refine ⟨fun kind => ?_, ?_⟩
  · rw [hissuer]
    cases kind <;> decide
  · rw [hissuer]
    decide

/-- The demo user logs in at the first instance, in so many steps. -/
def demoEntry (m : Nat) : List (Turn 2) :=
  .start 0 (.login "demo" "demo") :: List.replicate m (.step 0)

/-- Both demo instances are asked to redeem the refresh token, and go on in steps. -/
def demoRace (steps : List Nat) : List (Turn 2) :=
  [.start 0 (.refresh demoRefreshToken), .start 1 (.refresh demoRefreshToken)] ++ steps.map .step

theorem races_demoRace {g : MemoryFleet 2}
    (hat : ∀ i : Fin 2, g.Redeemable i demoRefreshToken demoRefreshClaims)
    (htimely : ∀ i : Fin 2, g.Timely i) (steps : List Nat) :
    ∀ t ∈ demoRace steps, t.Races g demoRefreshToken demoRefreshClaims := by
  have hsteps : ∀ t ∈ steps.map Turn.step, t.Races g demoRefreshToken demoRefreshClaims := by
    intro t ht
    obtain ⟨k, -, rfl⟩ := List.mem_map.1 ht
    trivial
  exact List.forall_mem_cons.2
    ⟨⟨rfl, hat 0, htimely 0⟩, List.forall_mem_cons.2 ⟨⟨rfl, hat 1, htimely 1⟩, hsteps⟩⟩

theorem length_demoRace (g : MemoryFleet 2) (steps : List Nat) :
    ((idle g).run (demoRace steps)).calls.length = 2 := by
  rw [demoRace, run_append, length_steps]
  rfl

/-- The demo fleet with another issuer at its second instance. -/
def demoMixed (issuer : Issuer) : MemoryFleet 2 :=
  demo.modifyInstance 1 fun x => { x with issuer }

/-- An issuer of refresh tokens that would outlive the calendar. -/
def endlessIssuer : Issuer :=
  { demoIssuer with
    config := { demoIssuer.config with refreshLifetime := .ofSeconds 10000000000000 } }

theorem fresh_demoMixed (issuer : Issuer) : (demoMixed issuer).Fresh := by
  have hfresh : demo.Fresh := fresh_start ..
  refine ⟨rfl, rfl, rfl, rfl, fun j => ?_, fun j => ?_⟩
  · have hcache : (demoMixed issuer).cache j = demo.cache j :=
      part_modifyInstance demo 1 j Instance.cache fun _ => rfl
    rw [hcache]
    exact hfresh.near j
  · have hrevoked : (demoMixed issuer).revoked j = demo.revoked j :=
      part_modifyInstance demo 1 j Instance.revoked fun _ => rfl
    rw [hrevoked]
    exact hfresh.revoked j

/-- Whether an issuer takes the demo tokens for its own, but has no pair to give for them. -/
structure Barren (issuer : Issuer) : Prop where
  good : issuer.config.verify .refresh demo.wall demoRefreshToken = .ok demoRefreshClaims
  borne : ((demoMixed issuer).execute 0 (.login "demo" "demo")).2.Bears demoUser demoRefreshToken
  untimely : ¬ (demoMixed issuer).Timely 1

/-- An issuer that differs from the demo issuer in its lifetimes only takes the demo tokens for its
own. -/
theorem barren_of_lifetimes (access refresh : Duration) :
    let issuer := { demoIssuer with
      config := { demoIssuer.config with accessLifetime := access, refreshLifetime := refresh } }
    ((demoMixed issuer).execute 0 (.login "demo" "demo")).2.Bears demoUser demoRefreshToken →
      ¬ (demoMixed issuer).Timely 1 → Barren issuer := by
  intro issuer hborne huntimely
  refine ⟨TokenConfig.verify_eq_ok_iff.2 ⟨?_, rfl, by decide⟩, hborne, huntimely⟩
  exact TokenConfig.peek_mint issuer.config .refresh demoUser "demo" _ (by decide) (by decide)
    (by decide)

theorem barren_hastyIssuer : Barren hastyIssuer := by
  refine barren_of_lifetimes demoIssuer.config.accessLifetime .zero ⟨_, rfl, rfl⟩ fun htimely => ?_
  have hlives := htimely.lifetime
  cases hlives

theorem barren_endlessIssuer : Barren endlessIssuer := by
  refine barren_of_lifetimes demoIssuer.config.accessLifetime (.ofSeconds 10000000000000)
    ⟨_, rfl, rfl⟩ fun htimely => ?_
  have hends := htimely.deadlines .refresh
  cases hends

/-- After a login at the first instance, the refresh token can be redeemed at the second one, which
has no pair to give. -/
theorem Barren.redeemable {issuer : Issuer} (hb : Barren issuer) :
    let g := ((demoMixed issuer).execute 0 (.login "demo" "demo")).2
    g.Redeemable 1 demoRefreshToken demoRefreshClaims ∧ ¬ g.Timely 1 := by
  have hissuer : (demoMixed issuer).issuer 1 = issuer := rfl
  have hwall : (demoMixed issuer).wall = demo.wall := rfl
  refine ⟨(fresh_demoMixed issuer).redeemable_login "demo" "demo" ?_ hb.borne, fun htimely => ?_⟩
  · rw [hissuer, hwall]
    exact hb.good
  · exact hb.untimely (htimely.congr (execute_wall ..).symm (execute_issuer ..).symm)

/-- Whether, after a login at the first demo instance, a refresh at the second one that runs alone
does not win, though the token can be redeemed there. -/
def NoWinner (issuer : Issuer) : Prop := ∃ m steps h e,
  let g := ((idle (demoMixed issuer)).run (demoEntry m)).fleet
  (demoMixed issuer).Fresh ∧ g.Redeemable 1 demoRefreshToken demoRefreshClaims ∧
    ((idle g).run (.start 1 (.refresh demoRefreshToken) :: List.replicate steps (.step 0))).calls =
      [⟨1, .refresh demoRefreshToken, h, .done (.error e)⟩]

theorem Barren.noWinner {issuer : Issuer} (hb : Barren issuer) : NoWinner issuer := by
  obtain ⟨hredeemable, huntimely⟩ := hb.redeemable
  obtain ⟨m, hlogin⟩ := run_alone (demoMixed issuer) 0 (.login "demo" "demo")
  obtain ⟨steps, h, e, hcalls⟩ := run_untimely huntimely demoRefreshToken
  refine ⟨m, steps, h, e, ?_⟩
  intro g
  have hfleet : g = ((demoMixed issuer).execute 0 (.login "demo" "demo")).2 :=
    congrArg Parallel.fleet hlogin
  rw [hfleet]
  exact ⟨fresh_demoMixed issuer, hredeemable, hcalls⟩

/-! ## The winner -/

/-- However refreshes of a token that can be redeemed are interleaved, whatever the caches do while
no time passes: when all of them have ended, exactly one has succeeded, the other ones have found
the token revoked or no longer in the session, and the session holds what the one was given. -/
theorem one_winner {f : MemoryFleet n} (hf : f.Fresh) (before turns : List (Turn n)) :
    let g := ((idle f).run before).fleet
    let s := (idle g).run turns
    (∀ t ∈ turns, t.Races g token claims) → s.calls ≠ [] → (∀ c ∈ s.calls, c.isDone = true) →
      ∃ k i h pair, s.calls[k]? = some ⟨i, .refresh token, h, .done (.ok pair)⟩ ∧
        (∀ (m : Nat) (c : Call n), s.calls[m]? = some c → m ≠ k → ∃ j h' e,
          c = ⟨j, .refresh token, h', .done (.error e)⟩ ∧
            (e = .tokenBlacklisted ∨ e = .sessionNotFound)) ∧
        ∃ row, s.row? claims.user = some row ∧ row.refreshToken = pair.refresh ∧
          row.expiresAt = pair.refreshExpiresAt := by
  intro g s hturns hcalls hdone
  have hg : g.Regular := hf.regular before
  -- Some call has begun, so the session holds the token at first.
  have hborne : g.Bears claims.user token := by
    obtain ⟨c, rest, hsplit⟩ := List.exists_cons_of_ne_nil hcalls
    have hfirst : s.calls[0]? = some c := by rw [hsplit]; rfl
    rcases started_of_call turns hfirst with ⟨c₀, hc₀⟩ | ⟨i, o, hmem⟩
    · cases hc₀
    · exact (hturns _ hmem).2.1.borne
  exact ((race_idle hg hborne).run hg hturns).result hcalls hdone

/-- Two refreshes that take turns for a while and then go on to their ends: one wins. -/
theorem one_winner_demo : ∃ m rest,
    let g := ((idle demo).run (demoEntry m)).fleet
    let turns := demoRace ((List.replicate 12 [0, 1]).flatten ++ rest)
    let s := (idle g).run turns
    (∀ t ∈ turns, t.Races g demoRefreshToken demoRefreshClaims) ∧ s.calls.length = 2 ∧
      (∀ c ∈ s.calls, c.isDone = true) ∧
      ∃ k i h pair, s.calls[k]? = some ⟨i, .refresh demoRefreshToken, h, .done (.ok pair)⟩ ∧
        (∀ (m : Nat) (c : Call 2), s.calls[m]? = some c → m ≠ k → ∃ j h' e,
          c = ⟨j, .refresh demoRefreshToken, h', .done (.error e)⟩ ∧
            (e = .tokenBlacklisted ∨ e = .sessionNotFound)) ∧
        ∃ row, s.row? demoUser = some row ∧ row.refreshToken = pair.refresh ∧
          row.expiresAt = pair.refreshExpiresAt := by
  obtain ⟨m, hlogin⟩ := run_alone demo 0 (.login "demo" "demo")
  -- Whatever is left of the two calls is done at the end.
  let taken : List Nat := (List.replicate 12 [0, 1]).flatten
  obtain ⟨rest, hended⟩ :=
    exists_ended ((idle ((idle demo).run (demoEntry m)).fleet).run (demoRace taken))
  refine ⟨m, rest, ?_⟩
  intro g turns s
  have hfleet : g = (demo.execute 0 (.login "demo" "demo")).2 := congrArg Parallel.fleet hlogin
  have hraces : ∀ t ∈ turns, t.Races g demoRefreshToken demoRefreshClaims := by
    rw [hfleet]
    exact races_demoRace redeemable_demo
      (fun i => (timely_demo i).congr (execute_wall ..) (execute_issuer ..)) _
  have hlength : s.calls.length = 2 := length_demoRace g (taken ++ rest)
  have hdone : ∀ c ∈ s.calls, c.isDone = true := by
    have hsplit : turns = demoRace taken ++ rest.map .step := by
      simp only [turns, demoRace, List.map_append, List.append_assoc, taken]
    show ∀ c ∈ ((idle g).run turns).calls, c.isDone = true
    rw [hsplit, run_append]
    exact hended
  have hcalls : s.calls ≠ [] := by
    intro hnil
    rw [hnil] at hlength
    cases hlength
  have hfresh : demo.Fresh := fresh_start ..
  exact ⟨hraces, hlength, hdone, one_winner hfresh (demoEntry m) turns hraces hcalls hdone⟩

/-- Refresh tokens that would live for no time, or for longer than there are dates, make refreshes
fail that nothing else stands in the way of. -/
theorem no_winner_untimely : NoWinner hastyIssuer ∧ NoWinner endlessIssuer :=
  ⟨barren_hastyIssuer.noWinner, barren_endlessIssuer.noWinner⟩

end Parallel

end Bearer
