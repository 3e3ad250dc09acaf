/-
  Revoking all tokens of a user leaves none behind.

  The session goes with the call, and a session is only ever given a token that
  is new, so no row of the user holds an old refresh token again and none can be
  redeemed.  An access token runs into the cutoff, which the record keeps for
  longer than the token lives; a cache may know only an earlier cutoff, but
  forgets that within the time that cutoffs are cached for.

  Main statement: `refused_after_revokeAll`.
-/
import Bearer.Proofs.Fleet.Issue
import Bearer.Proofs.Revocation.Cutoff

namespace Bearer

open Fleet

variable {n : Nat} {f : MemoryFleet n} {i j : Fin n} {h : History} {r : Request}
variable {o : Operation} {user : UserId} {token : String} {number : Nat}

/-! ## Refresh tokens -/

namespace Fleet

/-- Whether the row of a user does not hold a token. -/
def Unheld (f : MemoryFleet n) (user : UserId) (token : String) : Prop :=
  ∀ row, f.origin.sessions.rows.get? user = some row → row.refreshToken ≠ token

end Fleet

/-- What an exchange says about a token that has been drawn: its id is not drawn again. -/
def DrawnFact (token : String) : Exchange → Prop
  | ⟨.freshTokenId, tokenId⟩ => ∀ config payload, Token.Payload.InRange payload →
    token = TokenConfig.mint config payload → payload.tokenId ≠ tokenId
  | _ => True

/-- What an exchange says about a token that is not held: nothing is written in its place. -/
def UnheldFact (user : UserId) (token : String) : Exchange → Prop
  | ⟨.session (.updateToken owner (some old) _ _), .ok true⟩ => owner = user → old ≠ token
  | _ => True

/-- A token that has been drawn is not issued anew. -/
theorem ne_of_issued {config : TokenConfig} {kind : TokenKind} {given : String}
    (hfacts : ∀ e ∈ h, DrawnFact token e) (hissued : h.Issued config kind user given) :
    given ≠ token := by
  obtain ⟨username, time, expiresAt, tokenId, -, hdrew, -, rfl⟩ := hissued
  intro heq
  exact hfacts _ hdrew config _ (TokenConfig.inRange_payload ..) heq.symm rfl

theorem preserved_drawn (token : String) :
    Preserved (fun _ _ => True) (fun f : MemoryFleet n => f.Drawn token)
      (fun _ _ => DrawnFact token) where
  request := by
    intro f i h r o _ hdrawn _ _ _
    refine ⟨hdrawn.mono (answer_onward f i r), ?_⟩
    cases r with
    | freshTokenId =>
      intro config payload hrange hsame hfresh
      exact Nat.not_succ_le_self _ (hdrawn.unforeseen config payload _ hrange hfresh hsame)
    | _ => trivial
  event e hdrawn := hdrawn.mono (happen_onward _ e)

theorem unheld_answer (hu : f.Unheld user token) (hfacts : ∀ e ∈ h, DrawnFact token e)
    (hconduct : conduct (f.issuer i) o h r) : (answer i r f).2.Unheld user token := by
  intro row hrow
  rw [answer_sessions] at hrow
  cases r with
  | session c =>
    rcases SessionStore.row_of_perform hrow with hold | hgift
    · exact hu row hold
    · exact ne_of_issued hfacts (issued_of_gift hconduct hgift).2
  | _ => exact hu row hrow

theorem unheldFact_answer (hu : f.Unheld user token) :
    UnheldFact user token ⟨r, (answer i r f).1⟩ := by
  cases r with
  | session c =>
    cases c with
    | updateToken owner expected given expiresAt =>
      cases expected with
      | none => trivial
      | some old =>
        show UnheldFact user token ⟨.session (.updateToken owner (some old) given expiresAt),
          (f.origin.sessions.perform (.updateToken owner (some old) given expiresAt)).1⟩
        cases hreply : (f.origin.sessions.perform
            (.updateToken owner (some old) given expiresAt)).1 with
        | error e => trivial
        | ok written =>
          cases written with
          | false => trivial
          | true =>
            rintro rfl
            -- A write that is done replaces what the row held, which is not the token.
            rcases f.origin.sessions.update_cases owner (some old) given expiresAt with
              ⟨row, hrow, hexpected, -⟩ | ⟨hnot, -⟩
            · exact hexpected old rfl ▸ hu row hrow
            · exact absurd hreply hnot
    | _ => trivial
  | _ => trivial

/-- A token that is not held is not held again. -/
theorem preserved_unheld (user : UserId) (token : String) :
    Preserved (fun _ _ => True)
      (fun f : MemoryFleet n => f.Drawn token ∧ f.Unheld user token)
      (fun _ _ e => DrawnFact token e ∧ UnheldFact user token e) where
  request := by
    intro f i h r o hmay hinv hfacts htold hconduct
    have hdrawn := fun e he => (hfacts e he).1
    obtain ⟨hdrawn', hfact⟩ := (preserved_drawn token).request hmay hinv.1 hdrawn htold hconduct
    exact ⟨⟨hdrawn', unheld_answer hinv.2 hdrawn hconduct⟩, hfact, unheldFact_answer hinv.2⟩
  event := by
    intro f e hinv
    refine ⟨(preserved_drawn token).event e hinv.1, ?_⟩
    unfold Unheld
    rw [happen_origin]
    exact hinv.2

/-- Revoking all tokens of a user removes the row of the user. -/
theorem unheld_of_revokeAll (hdrawn : f.Drawn token)
    (hok : (f.execute i (.revokeAll user)).1 = .ok ()) :
    (f.execute i (.revokeAll user)).2.Unheld user token := by
  obtain ⟨-, h, -, -, hreason, hestablished⟩ := (preserved_drawn token).establish
    (fun g => g.Unheld user token) (.session (.deleteByUser user))
    (fun {f i} _ row hrow => by
      rw [answer_sessions] at hrow
      simp only [SessionStore.perform, Table.get?_erase_self] at hrow
      cases hrow)
    (fun _ hfacts _ hconduct hu => unheld_answer hu hfacts hconduct)
    hdrawn (i := i) (o := .revokeAll user) trivial
  rw [hok] at hreason
  obtain ⟨-, -, -, -, -, ⟨found, hdeleted⟩, -⟩ := hreason
  exact hestablished ⟨_, hdeleted⟩

/-- A token that is not held is not redeemed. -/
theorem refresh_ne_ok (hdrawn : f.Drawn token) (hu : f.Unheld user token)
    (huser : ∀ claims, (f.issuer i).config.peek token = .ok claims → claims.user = user)
    (pair : TokenPair) : (f.execute i (.refresh token)).1 ≠ .ok pair := by
  intro hok
  obtain ⟨-, h, hfacts, -, hreason⟩ := (preserved_unheld user token).execute ⟨hdrawn, hu⟩
    (i := i) (o := .refresh token) trivial
  rw [hok] at hreason
  obtain ⟨claims, expiresAt, hpeek, -, -, -, hwritten⟩ := hreason
  exact (hfacts _ hwritten).2 (huser claims hpeek) rfl

/-! ## All tokens of the user -/

/-- Once all tokens of a user have been revoked, none of the refresh tokens minted before is
redeemed, and none of the access tokens minted before is accepted as soon as cutoffs cached before
are gone. -/
theorem refused_after_revokeAll {f₀ : MemoryFleet n} (hfresh : f₀.Fresh) {config : TokenConfig}
    (hconfig : ∀ j : Fin n, (f₀.issuer j).config = config) {accessSeconds refreshSeconds : Nat}
    (haccess : config.accessLifetime = .ofSeconds accessSeconds)
    (hrefresh : config.refreshLifetime = .ofSeconds refreshSeconds)
    (hlonger : accessSeconds < refreshSeconds) (before : List (Move n))
    (hok : ((f₀.play before).execute i (.revokeAll user)).1 = .ok ()) (after : List (Move n))
    (j : Fin n) :
    let f := f₀.play before
    let g := (f.execute i (.revokeAll user)).2.play after
    (∀ token pair, f.Minted config .refresh user token →
      (g.execute j (.refresh token)).1 ≠ .ok pair) ∧
    (∀ token found, f.Minted config .access user token →
      f.clock.after Key.cutoffLifetime ≤ g.clock →
      (g.execute j (.verify token)).1 ≠ .ok found) := by
  intro f g
  -- Refresh tokens go with the session, access tokens run into the cutoff.
  refine ⟨fun token pair hminted => ?_, fun token found hminted hclock haccepted => ?_⟩
  · have hcalled := ((preserved_drawn token).execute hminted.drawn (i := i) (o := .revokeAll user)
      trivial).1
    have hunheld := unheld_of_revokeAll hminted.drawn hok
    obtain ⟨hdrawn, hu⟩ : g.Drawn token ∧ g.Unheld user token :=
      (preserved_unheld user token).play ⟨hcalled, hunheld⟩ fun _ _ _ => trivial
    exact refresh_ne_ok hdrawn hu (fun claims hpeek => (hminted.of_peek hpeek).1) pair
  · obtain ⟨last, hlast, hcut⟩ := cutOff_of_revokeAll hok
    obtain ⟨hpeek, -, hsecond⟩ := TokenConfig.verify_eq_ok_iff.1 (verify_of_accepted haccepted)
    obtain ⟨rfl, hissued, time, expiresAt, hplain, htime, hdeadline, hexpires⟩ :=
      hminted.of_peek hpeek
    -- Nothing that was cached at the time of the call is left by now.
    have hbrief : f.Brief found.user := (preserved_brief found.user).play
      (fun j => hfresh.holds _ j) fun _ _ _ => trivial
    have hsettled := ((preserved_brief found.user).execute hbrief (i := i)
      (o := .revokeAll found.user) trivial).1.settled found.issuedAt j
    rw [execute_clock] at hsettled
    obtain ⟨hcut', hsettled'⟩ : g.CutOff found.user f.wall last ∧
        g.SettledBy (f.clock.after Key.cutoffLifetime) found.user found.issuedAt j :=
      (preserved_cutOff hissued last _ j).play ⟨hcut, hsettled⟩ fun _ _ _ => trivial
    -- The cutoff elapses in a later second than the token expires in.
    have helapsed : last.second ≤ g.wall.second :=
      Instant.second_le (elapsed_of_verify hissued hcut' hsettled' hclock haccepted)
    have hlonger : expiresAt.second < last.second := by
      rw [play_issuer, hconfig] at hlast
      refine Instant.second_lt_deadline hplain htime hdeadline hlast ?_
      simp only [TokenConfig.lifetime, TokenConfig.longestLifetime, haccess, hrefresh,
        Duration.nanos_max, Duration.ofSeconds]
      omega
    omega

open Fleet.Demo

/-- What the demo user gets at a login is worth nothing after a call at the other instance, even
though the access token would be good for another five seconds. -/
theorem refused_after_revokeAll_demo :
    let f := demo.play [demoLogin 0]
    let g := (f.execute 1 (.revokeAll demoUser)).2.play
      [.event (.pass (.ofSeconds 5) (.ofSeconds 60))]
    ∃ user pair, (demo.execute 0 (.login "demo" "demo")).1 = .ok (user, pair) ∧
      user.id = demoUser ∧ (f.execute 1 (.revokeAll demoUser)).1 = .ok () ∧
      (∀ pair', (g.execute 0 (.refresh pair.refresh)).1 ≠ .ok pair') ∧
      ∀ found, (g.execute 0 (.verify pair.access)).1 ≠ .ok found := by
  have hlogin : ∃ user pair, (demo.execute 0 (.login "demo" "demo")).1 = .ok (user, pair) ∧
      user.id = demoUser := ⟨_, _, rfl, rfl⟩
  have hok : ((demo.play [demoLogin 0]).execute 1
      (.revokeAll demoUser)).1 = .ok () := rfl
  intro f g
  obtain ⟨user, pair, hlogin, huser⟩ := hlogin
  have hconfig : ∀ j : Fin 2, (demo.issuer j).config = demoIssuer.config := by
    intro j
    rw [demo, issuer_start]
  obtain ⟨haccess, hrefresh⟩ := minted_of_login (by decide) hlogin
  rw [hconfig, huser] at haccess hrefresh
  have hshort : demoIssuer.config.accessLifetime = .ofSeconds 10 := rfl
  have hlong : demoIssuer.config.refreshLifetime = .ofSeconds 60 := rfl
  obtain ⟨hredeemed, haccepted⟩ := refused_after_revokeAll (fresh_start ..) hconfig hshort hlong
    (by decide) _ hok [.event (.pass (.ofSeconds 5) (.ofSeconds 60))] 0
  exact ⟨user, pair, hlogin, huser, hok, fun pair' => hredeemed _ pair' hrefresh,
    fun found => haccepted _ found haccess (by decide)⟩

end Bearer
