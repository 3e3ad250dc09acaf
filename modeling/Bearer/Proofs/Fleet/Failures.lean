/-
  Failing stores and failing caches.

  An instance carries out an operation over any stores of record and any shared
  cache, and before each request anything may happen to the fleet.  Failures of
  the stores always surface: the operation ends at once with the error of the
  call that has failed.  Failures of the caches never do: as long as the stores
  and the clock work, no operation ends with a fault, whatever the shared cache
  does, unless refresh tokens live for no time at all.

  Main statement: `failures_surface`.
-/
import Bearer.Proofs.Fleet.Start
import Bearer.Proofs.Fleet.Perform
import Bearer.Proofs.Service.Failures
import Bearer.Proofs.Store.Session

namespace Bearer.Fleet

section

variable {σ ρ : Type} {n : Nat} [Origin σ] [SharedBackend ρ]

/-- Answers a request after something has happened to the fleet. -/
def answerAfter (change : Fleet σ ρ n → Fleet σ ρ n) (i : Fin n) (r : Request) (f : Fleet σ ρ n) :
    r.Reply × Fleet σ ρ n :=
  answer i r (change f)

/-- What an operation exchanges while the fleet changes, the latest exchange first. -/
def transcript (f : Fleet σ ρ n) (change : Fleet σ ρ n → Fleet σ ρ n) (i : Fin n)
    (o : Operation) : History :=
  Program.history (answerAfter change i) (o.service (f.issuer i)).run f []

/-- What an operation answers while the fleet changes. -/
def outcome (f : Fleet σ ρ n) (change : Fleet σ ρ n → Fleet σ ρ n) (i : Fin n) (o : Operation) :
    o.Result :=
  ((o.service (f.issuer i)).run.run (answerAfter change i) f).1

/-- Every look at a wall clock that stands still shows the same time. -/
theorem told_transcript {f : Fleet σ ρ n} {change : Fleet σ ρ n → Fleet σ ρ n}
    (hstill : ∀ g, (change g).wall = g.wall) {i : Fin n} {o : Operation} {t : Instant}
    (ht : (f.transcript change i o).Told t) : t = f.wall := by
  have hany : Program.Obeys (fun _ _ => True) (fun _ _ => True) [] (o.service (f.issuer i)).run :=
    (Operation.obeys (f.issuer i) o).mono (fun _ _ _ => trivial) fun _ _ _ => trivial
  have hrun := hany.run (answerAfter change i)
    (fun h g => g.wall = f.wall ∧ ∀ t, h.Told t → t = f.wall) ?_ ⟨rfl, by simp [History.Told]⟩
  · exact hrun.1.2 t ht
  · rintro h g r ⟨hwall, htold⟩ -
    have hchanged : (change g).wall = f.wall := (hstill g).trans hwall
    refine ⟨(answer_wall (change g) i r).trans hchanged, fun t ht => ?_⟩
    rcases List.mem_cons.1 ht with heq | ht
    · cases heq
      exact hchanged
    · exact htold t ht

/-- Whatever happens to the fleet meanwhile: an operation ends at once with the error of a call to
the stores that fails, and asks nothing more.  If the stores do not fail, the wall clock stands
still and the times of new tokens make sense, it does not end with a fault. -/
theorem failures_surface (f : Fleet σ ρ n) (change : Fleet σ ρ n → Fleet σ ρ n) (i : Fin n)
    (o : Operation) :
    (∀ after x before e, f.transcript change i o = after ++ x :: before → x.failure? = some e →
      f.outcome change i o = .error e ∧ after = []) ∧
    ((∀ g, (change g).wall = g.wall) →
      (∀ x ∈ f.transcript change i o, ∀ e, x.failure? = some e → e.isFault = false) →
      (∀ kind, (f.wall.deadline? ((f.issuer i).config.lifetime kind)).isSome) →
      (f.issuer i).config.refreshLifetime.isZero = false →
      ∀ e, f.outcome change i o = .error e → e.isFault = false) := by
  obtain ⟨hlast, hresult⟩ := (Operation.frank (f.issuer i) o).run (answerAfter change i) f
  refine ⟨hlast, fun hstill hstores hdeadlines hlifetime e he => ?_⟩
  have haccount : (f.transcript change i o).AccountedFor (f.issuer i).config (fun _ => True)
      (.error e : o.Result) := he ▸ hresult
  rcases haccount with ⟨x, before, hsplit, hx, -⟩ | ⟨-, hfault⟩
  · exact hstores x (by simp [hsplit]) e hx
  · rw [Bool.eq_false_iff]
    exact fun hcase => History.not_mistimed (fun t => told_transcript hstill) hdeadlines hlifetime
      (hfault hcase)

end

open Demo

/-- The demo fleet with a revocation store that fails. -/
def demoBroken : Fleet (Guarded MemoryOrigin) SharedMemory 2 :=
  { demo with origin := { Guarded.working demo.origin with revocationsFail := true } }

/-- A check of the blacklist ends with the failure of the record, while the shared cache is away and
time passes; without failures of the record, a login does not end with a fault. -/
theorem failures_surface_demo :
    let away (f : Fleet (Guarded MemoryOrigin) SharedMemory 2) :=
      { f with shared := { f.shared with offline := true }, wall := demoMinute }
    let slow (f : MemoryFleet 2) := { f with shared := { f.shared with timingOut := true } }
    (∃ before, demoBroken.transcript away 0 (.isRevoked "id") =
        ⟨.revocation (.findActive "id" demoMinute), .error (.persistence .injected)⟩ :: before) ∧
      demoBroken.outcome away 0 (.isRevoked "id") = .error (.persistence .injected) ∧
      ∀ e, demo.outcome slow 1 (.login "demo" "demo") = .error e → e.isFault = false := by
  intro away slow
  have hbroken : ∃ before, demoBroken.transcript away 0 (.isRevoked "id") =
      ⟨.revocation (.findActive "id" demoMinute), .error (.persistence .injected)⟩ :: before :=
    ⟨_, rfl⟩
  have hworking : (demo.transcript slow 1 (.login "demo" "demo")).Clean := by decide +kernel
  obtain ⟨before, hsplit⟩ := hbroken
  refine ⟨⟨before, hsplit⟩, ?_, ?_⟩
  · exact ((failures_surface demoBroken away 0 (.isRevoked "id")).1 [] _ before _ hsplit rfl).1
  · refine (failures_surface demo slow 1 (.login "demo" "demo")).2 (fun _ => rfl) ?_ ?_ (by decide)
    · intro x hx e he
      rw [hworking x hx] at he
      cases he
    · intro kind
      cases kind <;> decide

/-! ## Refresh tokens that live for no time -/

/-- The demo issuer, but with refresh tokens that live for no time at all. -/
def hastyIssuer : Issuer :=
  { demoIssuer with config := { demoIssuer.config with refreshLifetime := .zero } }

/-- The demo fleet after a login, with a hasty issuer at the second instance. -/
def demoHasty : MemoryFleet 2 :=
  (demo.play [demoLogin 0]).modifyInstance 1 fun x => { x with issuer := hastyIssuer }

/-- The same fleet when the second instance has checked that the refresh token is not revoked. -/
def demoHastyChecked : MemoryFleet 2 :=
  (demoHasty.perform 1 (Auth.requireNotRevoked demoRefreshClaims)).2

/-- The same fleet when it has looked for the session, too. -/
def demoHastyFound : MemoryFleet 2 :=
  (answer 1 (.session (.findByToken demoRefreshToken .epoch)) demoHastyChecked).2

/-- What succeeds has met with no failure. -/
theorem clean_of_ok (config : TokenConfig) {n : Nat} {α : Type} {f g : MemoryFleet n} {i : Fin n}
    {s : Service α} {a : α} (hs : Service.Frank config (·.isFault) s)
    (hok : f.perform i s = (.ok a, g)) : (f.asked i s).Clean := by
  have hresult : (f.asked i s).AccountedFor config (·.isFault) (f.perform i s).1 :=
    (hs.run (answer i) f).2
  rw [hok] at hresult
  exact hresult

theorem transcript_id {n : Nat} (f : MemoryFleet n) (i : Fin n) (token : String) :
    f.transcript id i (.refresh token) = f.asked i (Auth.refresh (f.issuer i) token) := rfl

theorem outcome_id {n : Nat} (f : MemoryFleet n) (i : Fin n) (token : String) :
    f.outcome id i (.refresh token) = (f.perform i (Auth.refresh (f.issuer i) token)).1 := rfl

/-- With refresh tokens that live for no time, a refresh ends with a fault though nothing has
failed. -/
theorem fault_of_no_lifetime :
    (∀ kind, (demoHasty.wall.deadline? ((demoHasty.issuer 1).config.lifetime kind)).isSome) ∧
      (demoHasty.transcript id 1 (.refresh demoRefreshToken)).Clean ∧
      demoHasty.outcome id 1 (.refresh demoRefreshToken) =
        .error (.internal .issuedTokenExpired) := by
  have hgood : hastyIssuer.config.verify .refresh demoHasty.wall demoRefreshToken =
      .ok demoRefreshClaims := by
    refine TokenConfig.verify_eq_ok_iff.2 ⟨?_, rfl, by decide⟩
    exact TokenConfig.peek_mint hastyIssuer.config .refresh demoUser "demo" _ (by decide)
      (by decide) (by decide)
  have hverify : demoHasty.perform 1 (hastyIssuer.verify .refresh demoRefreshToken) =
      (.ok demoRefreshClaims, demoHasty) := by rw [perform_verify, hgood]
  have hchecked : demoHasty.perform 1 (Auth.requireNotRevoked demoRefreshClaims) =
      (.ok (), demoHastyChecked) := Prod.ext (by decide +kernel) rfl
  -- The token is still in the session.
  obtain ⟨row, hrow, huser, htoken⟩ : ∃ row,
      demoHastyChecked.origin.sessions.findByUser demoUser .epoch = some row ∧
        row.user = demoUser ∧ row.refreshToken = demoRefreshToken := ⟨_, rfl, rfl, rfl⟩
  have hcoherent : demoHastyChecked.origin.sessions.Coherent :=
    (SessionStore.Reached.perform .empty (.upsert demoUser demoRefreshToken demoMinute
      .epoch)).coherent
  have hfound : demoHastyChecked.perform 1 (Sessions.getByToken demoRefreshToken) =
      (.ok row, demoHastyFound) := by
    have hwall : demoHastyChecked.wall = .epoch := rfl
    rw [perform_getByToken, hwall, hcoherent.findByToken_eq_some_iff.2 ⟨huser ▸ hrow, htoken⟩]
    rfl
  have hrest : (demoHastyFound.perform 1
      (redeem hastyIssuer demoRefreshClaims demoRefreshToken)).1 =
        .error (.internal .issuedTokenExpired) := by decide +kernel
  have hcleanRest : (demoHastyFound.asked 1
      (redeem hastyIssuer demoRefreshClaims demoRefreshToken)).Clean := by decide +kernel
  have hissuer : demoHasty.issuer 1 = hastyIssuer := rfl
  refine ⟨fun kind => by cases kind <;> decide, ?_, ?_⟩
  · rw [transcript_id, hissuer, asked_refresh hgood hchecked hfound huser]
    refine List.forall_mem_append.2 ⟨List.forall_mem_append.2 ⟨List.forall_mem_append.2
      ⟨hcleanRest, ?_⟩, ?_⟩, ?_⟩
    · exact clean_of_ok hastyIssuer.config (Sessions.frank_getByToken _) hfound
    · exact clean_of_ok hastyIssuer.config (Auth.frank_requireNotRevoked _) hchecked
    · exact clean_of_ok hastyIssuer.config (Issuer.frank_verify _ _) hverify
  · rw [outcome_id, hissuer, perform_refresh hgood hchecked hfound huser]
    exact hrest

end Bearer.Fleet
