/-
  What refreshes of one token bring about.

  Refreshes of a token that can be redeemed where they are called are under way
  for some time, which the clocks do not notice.  Whether they go on alone or
  between each other, and whether or not calls to the stores of record fail,
  what can be said of the fleet depends only on what has been exchanged: the
  token is unlisted until one of them has put it on record as revoked, and the
  session holds it until one of them has replaced it.

  Main definition: `Course`.  Main statements: `Course.step` and `Course.fail`.
-/
import Bearer.Proofs.Revocation.Complete
import Bearer.Proofs.Revocation.Permanence
import Bearer.Proofs.Session.Redeemable

namespace Bearer

open Fleet

variable {n : Nat} {f g : MemoryFleet n} {i j : Fin n} {h : History} {r : Request} {x : Exchange}
variable {token : String} {claims : Claims} {said : Exchange → Prop}

/-- Whether no store of record has failed in an exchange. -/
def Exchange.Works : Exchange → Prop
  | ⟨.session _, .error _⟩ | ⟨.revocation _, .error _⟩ | ⟨.user _, .error _⟩ => False
  | _ => True

theorem Exchange.not_works_cases (h : ¬ x.Works) :
    (∃ c e, x = ⟨.session c, .error e⟩) ∨ (∃ c e, x = ⟨.revocation c, .error e⟩) ∨
      ∃ c e, x = ⟨.user c, .error e⟩ := by
  obtain ⟨r, reply⟩ := x
  cases r with
  | session c =>
    cases reply with
    | ok answer => exact absurd trivial h
    | error e => exact Or.inl ⟨c, e, rfl⟩
  | revocation c =>
    cases reply with
    | ok answer => exact absurd trivial h
    | error e => exact Or.inr (Or.inl ⟨c, e, rfl⟩)
  | user c =>
    cases reply with
    | ok answer => exact absurd trivial h
    | error e => exact Or.inr (Or.inr ⟨c, e, rfl⟩)
  | _ => exact absurd trivial h

/-- What an exchange says about a token that only one user's session may hold: it finds no other
user's. -/
def FoundFact (user : UserId) (token : String) : Exchange → Prop
  | ⟨.session (.findByToken wanted _), .ok (some row)⟩ => wanted = token → row.user = user
  | _ => True

/-- What holds of a fleet while refreshes of a token are under way that have begun at `g`. -/
structure Steady (g : MemoryFleet n) (token : String) (claims : Claims) (f : MemoryFleet n) :
    Prop where
  wall : f.wall = g.wall
  issuer : ∀ i : Fin n, f.issuer i = g.issuer i
  onward : g.Onward f
  sessions : f.origin.sessions.Coherent
  revocations : f.origin.revocations.Keyed
  others : ∀ user, user ≠ claims.user →
    f.origin.sessions.rows.get? user = g.origin.sessions.rows.get? user
  unopposed : ∀ i, g.Redeemable i token claims → f.Unopposed i claims

/-- What every exchange says meanwhile. -/
structure SteadyFact (g : MemoryFleet n) (token : String) (claims : Claims) (x : Exchange) :
    Prop where
  told : ∀ t : Instant, x = ⟨.now, t⟩ → t = g.wall
  drawn : ∀ old, g.Unforeseen old → DrawnFact old x
  lists : ∀ tokenId expiresAt, x.request = .revocation (.insert tokenId expiresAt) →
    tokenId = claims.tokenId ∧ expiresAt = claims.expiresAt
  unopposed : UnopposedFact claims x
  found : FoundFact claims.user token x

theorem Fleet.Regular.steady (hg : g.Regular) : Steady g token claims g where
  wall := rfl
  issuer _ := rfl
  onward := .refl g
  sessions := hg.sessions
  revocations := hg.revocations
  others _ _ := rfl
  unopposed _ hj := hj.unopposed

theorem Steady.peek (hs : Steady g token claims f) (hat : g.Redeemable i token claims) :
    (f.issuer i).config.peek token = .ok claims := by
  rw [hs.issuer]
  exact (TokenConfig.verify_eq_ok_iff.1 hat.good).1

theorem SteadyFact.told_eq (hfacts : ∀ x ∈ h, SteadyFact g token claims x) {t : Instant}
    (ht : h.Told t) : t = g.wall :=
  (hfacts _ ht).told t rfl

/-! ## One request -/

/-- A refresh writes its new token into the session of the user whom its old token names. -/
theorem conduct_update {issuer : Issuer} {owner : UserId} {expected : Option String} {new : String}
    {expiresAt : Instant} (hpeek : issuer.config.peek token = .ok claims)
    (hconduct : conduct issuer (.refresh token) h
      (.session (.updateToken owner expected new expiresAt))) :
    owner = claims.user ∧ expected = some token ∧
      h.Issued issuer.config .refresh owner new := by
  obtain ⟨-, hissued, old, claims', hrefresh, rfl, hpeek', rfl⟩ := hconduct
  obtain rfl := Operation.refresh.inj hrefresh
  obtain rfl := TokenConfig.claims_unique hpeek hpeek'
  exact ⟨rfl, rfl, hissued⟩

/-- A refresh puts its own token on record as revoked. -/
theorem conduct_insert {issuer : Issuer} {tokenId : String} {expiresAt : Instant}
    (hpeek : issuer.config.peek token = .ok claims)
    (hconduct : conduct issuer (.refresh token) h (.revocation (.insert tokenId expiresAt))) :
    tokenId = claims.tokenId ∧ expiresAt = claims.expiresAt := by
  obtain ⟨old, hretired, claims', hpeek', rfl, rfl⟩ := hconduct
  obtain rfl := List.mem_singleton.1 hretired
  obtain rfl := TokenConfig.claims_unique hpeek hpeek'
  exact ⟨rfl, rfl⟩

/-- The ids that are drawn meanwhile are new. -/
theorem Steady.drawnFact (hs : Steady g token claims f) {old : String} (hold : g.Unforeseen old) :
    DrawnFact old ⟨r, (answer i r f).1⟩ := by
  cases r with
  | freshTokenId =>
    intro config payload hrange hsame hfresh
    have hdrawn : f.minted + 1 ≤ g.minted :=
      hold config payload _ hrange (hs.onward.ids ▸ hfresh) hsame
    have hminted := hs.onward.minted
    omega
  | _ => trivial

/-- No other user's session holds the token. -/
theorem Steady.foundFact (hs : Steady g token claims f) (hg : g.Regular)
    (hborne : g.Bears claims.user token) : FoundFact claims.user token ⟨r, (answer i r f).1⟩ := by
  cases r with
  | session c =>
    cases c with
    | findByToken wanted time =>
      show FoundFact claims.user token ⟨.session (.findByToken wanted time),
        .ok (f.origin.sessions.findByToken wanted time)⟩
      cases hfound : f.origin.sessions.findByToken wanted time with
      | none => trivial
      | some row =>
        rintro rfl
        obtain ⟨hrow, htoken⟩ := hs.sessions.findByToken_eq_some_iff.1 hfound
        obtain ⟨row', hrow', htoken'⟩ := hborne
        refine Decidable.byContradiction fun hne => hne ?_
        -- It would have held the token from the beginning, beside the user's own.
        have hget := (SessionStore.findByUser_eq_some_iff.1 hrow).1
        rw [hs.others row.user hne] at hget
        exact hg.sessions.distinct _ _ row row' hget
          (SessionStore.findByUser_eq_some_iff.1 hrow').1 (htoken.trans htoken'.symm)
    | _ => trivial
  | _ => trivial

/-- The stores of record do not refuse a new token, which is no one's yet. -/
theorem Steady.works (hs : Steady g token claims f) (hg : g.Regular)
    (hat : g.Redeemable i token claims) (hfacts : ∀ x ∈ h, SteadyFact g token claims x)
    (hmanners : redeeming (f.issuer i) (.refresh token) h r) :
    Exchange.Works ⟨r, (answer i r f).1⟩ := by
  obtain ⟨hconduct, hredeems⟩ := hmanners
  cases r with
  | revocation c => cases c <;> trivial
  | user c => exact ((hredeems token rfl).elim (fun hlooks => hlooks.1) id).elim
  | session c =>
    cases c with
    | upsert owner given expiresAt createdAt =>
      exact ((hredeems token rfl).elim (fun hlooks => hlooks.1) id).elim
    | updateToken owner expected new expiresAt =>
      obtain ⟨rfl, rfl, hissued⟩ := conduct_update (hs.peek hat) hconduct
      show Exchange.Works ⟨.session (.updateToken claims.user (some token) new expiresAt),
        (f.origin.sessions.perform (.updateToken claims.user (some token) new expiresAt)).1⟩
      cases hreply : (f.origin.sessions.perform
          (.updateToken claims.user (some token) new expiresAt)).1 with
      | ok written => trivial
      | error e =>
        refine absurd hreply (SessionStore.update_ne_error fun other row hrow hne => ?_)
        rw [hs.others other hne] at hrow
        have hold := hg.unforeseen other row hrow
        exact (ne_of_issued (fun x hx => (hfacts x hx).drawn _ hold) hissued).symm
    | _ => trivial
  | _ => trivial

/-- A request of a refresh keeps the fleet steady. -/
theorem Steady.answer (hs : Steady g token claims f) (hat : g.Redeemable i token claims)
    (hfacts : ∀ x ∈ h, SteadyFact g token claims x)
    (hmanners : redeeming (f.issuer i) (.refresh token) h r) :
    Steady g token claims (Fleet.answer i r f).2 where
  wall := (answer_wall f i r).trans hs.wall
  issuer j := (answer_issuer f i j r).trans (hs.issuer j)
  onward := hs.onward.trans (answer_onward f i r)
  sessions := coherent_answer hs.sessions i r
  revocations := keyed_answer hs.revocations i r
  others other hne := by
    rw [← hs.others other hne, answer_sessions]
    cases r with
    | session c =>
      cases c with
      | updateToken owner expected new expiresAt =>
        obtain ⟨rfl, -, -⟩ := conduct_update (hs.peek hat) hmanners.1
        exact SessionStore.get?_update_of_ne hne expected
      | findByToken wanted time => rfl
      | _ => exact ((hmanners.2 token rfl).elim (fun hlooks => hlooks.1) id).elim
    | _ => rfl
  unopposed j hj :=
    unopposed_answer (hs.unopposed j hj) (fun x hx => (hfacts x hx).unopposed) hmanners.1
      (hmanners.2 token rfl)

/-- What it is answered is steady, too. -/
theorem Steady.fact (hs : Steady g token claims f) (hg : g.Regular)
    (hat : g.Redeemable i token claims) (hfacts : ∀ x ∈ h, SteadyFact g token claims x)
    (hmanners : redeeming (f.issuer i) (.refresh token) h r) :
    SteadyFact g token claims ⟨r, (Fleet.answer i r f).1⟩ where
  told t heq := by
    cases heq
    exact hs.wall
  drawn old hold := hs.drawnFact hold
  lists tokenId expiresAt heq := by
    obtain rfl : r = .revocation (.insert tokenId expiresAt) := heq
    exact conduct_insert (hs.peek hat) hmanners.1
  unopposed := unopposedFact_answer (hs.unopposed i hat)
    (fun t ht => (SteadyFact.told_eq hfacts ht).trans hs.wall.symm) (hmanners.2 token rfl)
  found := hs.foundFact hg hat.borne

theorem Steady.happen (hs : Steady g token claims f) {e : Event n} (he : e.Timeless) :
    Steady g token claims (f.happen e) where
  wall := he.wall.trans hs.wall
  issuer j := (happen_issuer f e j).trans (hs.issuer j)
  onward := hs.onward.trans (happen_onward f e)
  sessions := by
    rw [happen_origin]
    exact hs.sessions
  revocations := by
    rw [happen_origin]
    exact hs.revocations
  others other hne := by
    rw [happen_origin]
    exact hs.others other hne
  unopposed j hj := (hs.unopposed j hj).happen he

/-- An exchange that replaces the token does so in the session of its user. -/
theorem of_replaces (hpeek : (f.issuer i).config.peek token = .ok claims)
    (hconduct : conduct (f.issuer i) (.refresh token) h r)
    (hreplaces : Exchange.Replaces ⟨r, (Fleet.answer i r f).1⟩) :
    ∃ new expiresAt row,
      (⟨r, (Fleet.answer i r f).1⟩ : Exchange) =
        ⟨.session (.updateToken claims.user (some token) new expiresAt), .ok true⟩ ∧
      h.Issued (f.issuer i).config .refresh claims.user new ∧
      f.origin.sessions.rows.get? claims.user = some row ∧ row.refreshToken = token ∧
      (Fleet.answer i r f).2.origin.sessions.rows.get? claims.user =
        some { row with refreshToken := new, expiresAt } := by
  cases r with
  | session c =>
    cases c with
    | updateToken owner expected new expiresAt =>
      obtain ⟨rfl, rfl, hissued⟩ := conduct_update hpeek hconduct
      rw [answer_sessions]
      rcases f.origin.sessions.update_cases claims.user (some token) new expiresAt with
        ⟨row, hrow, hexpected, hdone, hrows⟩ | ⟨hnot, -⟩
      · have hreply : (Fleet.answer i (.session (.updateToken claims.user (some token) new
            expiresAt)) f).1 = .ok true := hdone
        refine ⟨new, expiresAt, row, by rw [hreply], hissued, hrow, hexpected token rfl, ?_⟩
        dsimp only
        rw [hrows, Table.get?_insert_self]
      · refine absurd ?_ hnot
        have hcase : Exchange.Replaces ⟨.session (.updateToken claims.user (some token) new
          expiresAt), (f.origin.sessions.perform
            (.updateToken claims.user (some token) new expiresAt)).1⟩ := hreplaces
        cases hreply : (f.origin.sessions.perform
            (.updateToken claims.user (some token) new expiresAt)).1 with
        | error e =>
          rw [hreply] at hcase
          exact absurd hcase id
        | ok written =>
          rw [hreply] at hcase
          cases written with
          | true => rfl
          | false => exact absurd hcase id
    | _ => exact absurd hreplaces id
  | _ => exact absurd hreplaces id

/-! ## Calls that fail -/

/-- A call to the stores that has failed says nothing. -/
theorem steadyFact_of_not_works (h : ¬ x.Works)
    (hlists : ∀ tokenId expiresAt, x.request = .revocation (.insert tokenId expiresAt) →
      tokenId = claims.tokenId ∧ expiresAt = claims.expiresAt) :
    SteadyFact g token claims x := by
  refine ⟨?_, ?_, hlists, ⟨?_, ?_⟩, ?_⟩
  · rintro t rfl
    exact absurd trivial h
  · intro old hold
    rcases Exchange.not_works_cases h with ⟨c, e, rfl⟩ | ⟨c, e, rfl⟩ | ⟨c, e, rfl⟩ <;> trivial
  · rcases Exchange.not_works_cases h with ⟨c, e, rfl⟩ | ⟨c, e, rfl⟩ | ⟨c, e, rfl⟩ <;>
      cases c <;> trivial
  · rintro rfl
    exact absurd trivial h
  · rcases Exchange.not_works_cases h with ⟨c, e, rfl⟩ | ⟨c, e, rfl⟩ | ⟨c, e, rfl⟩ <;>
      cases c <;> trivial

theorem sparedFact_of_not_works {tokenId : String} {t wall : Instant} (h : ¬ x.Works) :
    SparedFact tokenId t wall x := by
  rcases Exchange.not_works_cases h with ⟨c, e, rfl⟩ | ⟨c, e, rfl⟩ | ⟨c, e, rfl⟩ <;>
    cases c <;> trivial

theorem borneFact_of_not_works {user : UserId} (h : ¬ x.Works) : BorneFact user token x := by
  rcases Exchange.not_works_cases h with ⟨c, e, rfl⟩ | ⟨c, e, rfl⟩ | ⟨c, e, rfl⟩ <;>
    cases c <;> trivial

/-! ## The course of refreshes -/

/-- What holds while refreshes of a token are under way that have begun at `g`, if they have
exchanged what is said. -/
structure Course (g : MemoryFleet n) (token : String) (claims : Claims) (said : Exchange → Prop)
    (f : MemoryFleet n) : Prop where
  steady : Steady g token claims f
  facts : ∀ x, said x → SteadyFact g token claims x
  /-- No revocation of the token counts until one has been put on record. -/
  unlisted : (said ⟨.revocation (.insert claims.tokenId claims.expiresAt), .ok ()⟩ →
      claims.expiresAt ≤ g.wall) →
    (∀ j, g.Redeemable j token claims → f.Unlisted j claims.tokenId) ∧
      ∀ x, said x → SparedFact claims.tokenId g.wall g.wall x
  barred : said ⟨.revocation (.insert claims.tokenId claims.expiresAt), .ok ()⟩ → f.Barred claims
  /-- The session holds the token until it has been replaced. -/
  borne : (∀ x, said x → ¬ x.Replaces) →
    f.Bears claims.user token ∧ ∀ x, said x → BorneFact claims.user token x

theorem course_nil (hg : g.Regular) (hborne : g.Bears claims.user token) :
    Course g token claims (fun _ => False) g where
  steady := hg.steady
  facts _ hx := hx.elim
  unlisted _ := ⟨fun _ hj => hj.unlisted, fun _ hx => hx.elim⟩
  barred hx := hx.elim
  borne _ := ⟨hborne, fun _ hx => hx.elim⟩

/-- What matters is only what has been said. -/
theorem Course.congr {said' : Exchange → Prop} (hc : Course g token claims said f)
    (h : ∀ x, said x ↔ said' x) : Course g token claims said' f := by
  obtain rfl : said = said' := funext fun x => propext (h x)
  exact hc

/-- The next request of a refresh is answered. -/
theorem Course.step (hc : Course g token claims said f) (hg : g.Regular)
    (hat : g.Redeemable i token claims) (hh : ∀ x ∈ h, said x)
    (hmanners : redeeming (f.issuer i) (.refresh token) h r) :
    Course g token claims (fun y => y = ⟨r, (answer i r f).1⟩ ∨ said y) (answer i r f).2 := by
  have hfacts : ∀ x ∈ h, SteadyFact g token claims x := fun x hx => hc.facts x (hh x hx)
  have hwall := hc.steady.wall
  have htold : ∀ t, h.Told t → t = f.wall :=
    fun t ht => (SteadyFact.told_eq hfacts ht).trans hwall.symm
  have hredeems := hmanners.2 token rfl
  refine ⟨hc.steady.answer hat hfacts hmanners, ?_, fun hlate => ?_, ?_, fun hvain => ?_⟩
  · rintro x (rfl | hx)
    · exact hc.steady.fact hg hat hfacts hmanners
    · exact hc.facts x hx
  · -- The only revocation that may be written is the one that would be said.
    obtain ⟨hunlisted, hspared⟩ := hc.unlisted fun hx => hlate (Or.inr hx)
    have hlists : ∀ expiresAt, r = .revocation (.insert claims.tokenId expiresAt) →
        expiresAt ≤ f.wall := by
      rintro expiresAt rfl
      obtain ⟨-, rfl⟩ := conduct_insert (hc.steady.peek hat) hmanners.1
      rw [hwall]
      exact hlate (Or.inl rfl)
    rw [← hwall] at hspared ⊢
    refine ⟨fun j hj => unlisted_answer (hunlisted j hj) (fun x hx => hspared x (hh x hx)) hlists
      hmanners.1 hredeems, ?_⟩
    rintro x (rfl | hx)
    · exact unlistedFact_answer (hunlisted i hat) (hc.steady.unopposed i hat).memory
        hc.steady.revocations htold hlists hredeems
    · exact hspared x hx
  · rintro (heq | hx)
    · intro _
      obtain rfl : Request.revocation (.insert claims.tokenId claims.expiresAt) = r :=
        congrArg Exchange.request heq
      rw [answer_revocations]
      exact RevocationStore.revokedUntil_insert ..
    · exact barred_answer (hc.barred hx) htold hmanners.1
  · obtain ⟨hborne, hfound⟩ := hc.borne fun x hx => hvain x (Or.inr hx)
    refine ⟨bears_answer hborne hredeems (hvain _ (Or.inl rfl)), ?_⟩
    rintro x (rfl | hx)
    · exact borneFact_answer hborne hc.steady.sessions htold hredeems
    · exact hfound x hx

/-- The next request of a refresh is a call to the stores, which fails without an effect. -/
theorem Course.fail (hc : Course g token claims said f) (hat : g.Redeemable i token claims)
    (hmanners : redeeming (f.issuer i) (.refresh token) h x.request) (hx : ¬ x.Works) :
    Course g token claims (fun y => y = x ∨ said y) f := by
  refine ⟨hc.steady, ?_, fun hlate => ?_, ?_, fun hvain => ?_⟩
  · rintro y (rfl | hy)
    · refine steadyFact_of_not_works hx fun tokenId expiresAt heq => ?_
      rw [heq] at hmanners
      exact conduct_insert (hc.steady.peek hat) hmanners.1
    · exact hc.facts y hy
  · obtain ⟨hunlisted, hspared⟩ := hc.unlisted fun hy => hlate (Or.inr hy)
    refine ⟨hunlisted, ?_⟩
    rintro y (rfl | hy)
    · exact sparedFact_of_not_works hx
    · exact hspared y hy
  · rintro (rfl | hy)
    · exact absurd trivial hx
    · exact hc.barred hy
  · obtain ⟨hborne, hfound⟩ := hc.borne fun y hy => hvain y (Or.inr hy)
    refine ⟨hborne, ?_⟩
    rintro y (rfl | hy)
    · exact borneFact_of_not_works hx
    · exact hfound y hy

theorem Course.happen (hc : Course g token claims said f) {e : Event n} (he : e.Timeless) :
    Course g token claims said (f.happen e) where
  steady := hc.steady.happen he
  facts := hc.facts
  unlisted hlate := by
    obtain ⟨hunlisted, hspared⟩ := hc.unlisted hlate
    exact ⟨fun j hj => (hunlisted j hj).happen he, hspared⟩
  barred hx := (preserved_barred claims).event e (hc.barred hx)
  borne hvain := by
    obtain ⟨hborne, hfound⟩ := hc.borne hvain
    exact ⟨hborne.happen he, hfound⟩

/-- The token can be redeemed until it has been replaced, or put on record as revoked for some
time. -/
theorem Course.redeemable (hc : Course g token claims said f) (hat : g.Redeemable j token claims)
    (hlate : said ⟨.revocation (.insert claims.tokenId claims.expiresAt), .ok ()⟩ →
      claims.expiresAt ≤ g.wall)
    (hvain : ∀ x, said x → ¬ x.Replaces) : f.Redeemable j token claims where
  good := by
    rw [hc.steady.issuer, hc.steady.wall]
    exact hat.good
  unopposed := hc.steady.unopposed j hat
  unlisted := (hc.unlisted hlate).1 j hat
  borne := (hc.borne hvain).1

/-- As long as nothing has been replaced, the sessions hold what they have held. -/
theorem Course.regular (hc : Course g token claims said f) (hg : g.Regular)
    (hborne : g.Bears claims.user token) (hvain : ∀ x, said x → ¬ x.Replaces) : f.Regular where
  sessions := hc.steady.sessions
  revocations := hc.steady.revocations
  unforeseen user row hrow := by
    refine Unforeseen.mono ?_ hc.steady.onward
    by_cases huser : user = claims.user
    · subst huser
      obtain ⟨row', hrow', htoken'⟩ := (hc.borne hvain).1
      obtain rfl := Option.some.inj
        (hrow.symm.trans (SessionStore.findByUser_eq_some_iff.1 hrow').1)
      obtain ⟨before, hbefore, htoken⟩ := hborne
      rw [htoken', ← htoken]
      exact hg.unforeseen _ before (SessionStore.findByUser_eq_some_iff.1 hbefore).1
    · rw [hc.steady.others user huser] at hrow
      exact hg.unforeseen user row hrow

/-! ## How a refresh ends -/

/-- Whether a token could not be written into a session. -/
def History.Unwritten (h : History) : Prop :=
  ∃ user expected new expiresAt e,
    ⟨.session (.updateToken user expected new expiresAt), .error e⟩ ∈ h

theorem History.Idle.not_unwritten (hh : h.Idle) : ¬ h.Unwritten := by
  rintro ⟨user, expected, new, expiresAt, e, hx⟩
  exact hh _ hx

/-- How a refresh can end in the course of refreshes. -/
inductive CourseEnding (g : MemoryFleet n) (token : String) (claims : Claims)
    (said : Exchange → Prop) (h : History) : Except AuthError TokenPair → Prop where
  /-- It has put the token on record as revoked and replaced it. -/
  | redeemed {pair : TokenPair}
      (listed : ⟨.revocation (.insert claims.tokenId claims.expiresAt), .ok ()⟩ ∈ h)
      (won : ⟨.session (.updateToken claims.user (some token) pair.refresh
        pair.refreshExpiresAt), .ok true⟩ ∈ h) : CourseEnding g token claims said h (.ok pair)
  /-- The token was on record as revoked already. -/
  | refused (idle : h.Idle)
      (listed : said ⟨.revocation (.insert claims.tokenId claims.expiresAt), .ok ()⟩)
      (lasts : g.wall < claims.expiresAt) :
      CourseEnding g token claims said h (.error .tokenBlacklisted)
  /-- The token had been replaced already. -/
  | outrun (vain : h.Vain) (replaced : ∃ x, said x ∧ x.Replaces) :
      CourseEnding g token claims said h (.error .sessionNotFound)
  /-- A call to the stores has failed, be it after the token was put on record as revoked. -/
  | failed {e : AuthError} (vain : h.Vain) (failed : ∃ x ∈ h, ¬ x.Works)
      (unwritten : ⟨.revocation (.insert claims.tokenId claims.expiresAt), .ok ()⟩ ∈ h ↔
        h.Unwritten) : CourseEnding g token claims said h (.error e)

/-- A refresh that has written nothing has failed without putting the token on record. -/
theorem CourseEnding.of_idle {e : AuthError} (idle : h.Idle) (failed : ∃ x ∈ h, ¬ x.Works) :
    CourseEnding g token claims said h (.error e) :=
  .failed idle.vain failed ⟨fun hx => absurd (idle _ hx) id, fun hx => absurd hx idle.not_unwritten⟩

theorem Course.ending {result : Except AuthError TokenPair} (hc : Course g token claims said f)
    (hat : g.Redeemable i token claims) (htimely : g.Timely i) (hh : ∀ x ∈ h, said x)
    (hending : RefreshEnding (g.issuer i).config token h result) :
    CourseEnding g token claims said h result := by
  have hfacts : ∀ x ∈ h, SteadyFact g token claims x := fun x hx => hc.facts x (hh x hx)
  have htold : ∀ t, h.Told t → t = g.wall := fun t => SteadyFact.told_eq hfacts
  have hclaims : ∀ found, h.Accepted (g.issuer i).config token found → claims = found :=
    fun found hfound => TokenConfig.claims_unique (TokenConfig.verify_eq_ok_iff.1 hat.good).1
      hfound.peek
  have htimes := History.not_mistimed htold htimely.deadlines htimely.lifetime
  -- What the session holds can only be missed if it has been replaced.
  have hreplaced : (∃ x, said x ∧ ¬ BorneFact claims.user token x) →
      ∃ x, said x ∧ x.Replaces := by
    rintro ⟨x, hx, hnot⟩
    refine Classical.byContradiction fun hvain => hnot ?_
    exact (hc.borne fun y hy hreplaces => hvain ⟨y, hy, hreplaces⟩).2 x hx
  cases hending with
  | rejected _ told verdict =>
    rw [htold _ told, hat.good] at verdict
    cases verdict
  | refused idle accepted denied =>
    obtain rfl := hclaims _ accepted
    rcases denied with ⟨c, hfailed⟩ | ⟨rfl, hrefused | hcutOff⟩
    · exact .of_idle idle ⟨_, hfailed, id⟩
    · -- Nothing but a revocation on record can have told it so.
      by_cases hlate : said ⟨.revocation (.insert claims.tokenId claims.expiresAt), .ok ()⟩ →
          claims.expiresAt ≤ g.wall
      · have hspared := (hc.unlisted hlate).2
        exact absurd hrefused (not_refused (fun x hx => hspared x (hh x hx)) htold
          (Instant.le_refl _))
      · obtain ⟨hlisted, hlasts⟩ := Classical.not_imp.1 hlate
        exact .refused idle hlisted (Instant.not_le.1 hlasts)
    · exact absurd hcutOff (not_cutOff fun x hx => (hfacts x hx).unopposed.1)
  | unseen idle _ _ failed => exact .of_idle idle ⟨_, failed, id⟩
  | unheld idle _ _ found =>
    refine .outrun idle.vain (hreplaced ⟨_, hh _ found, fun hborne => ?_⟩)
    obtain ⟨row, hrow, -⟩ := hborne rfl
    cases hrow
  | foreign _ accepted _ found other =>
    obtain rfl := hclaims _ accepted
    exact absurd ((hfacts _ found).found rfl) other
  | mistimed mistimed => exact absurd mistimed htimes
  | unlisted idle accepted _ failed =>
    obtain rfl := hclaims _ accepted
    subst failed
    refine .failed (idle.vain.cons id) ⟨_, List.mem_cons_self .., id⟩ ⟨fun hx => ?_, ?_⟩
    · rcases List.mem_cons.1 hx with heq | hx
      · cases heq
      · exact absurd (idle _ hx) id
    · rintro ⟨user, expected, new, expiresAt, e', hx⟩
      rcases List.mem_cons.1 hx with heq | hx
      · cases heq
      · exact absurd (idle _ hx) id
  | unwritten vain accepted _ listed failed =>
    obtain rfl := hclaims _ accepted
    exact .failed vain ⟨_, failed, id⟩ (iff_of_true listed ⟨_, _, _, _, _, failed⟩)
  | outrun vain accepted _ _ lost =>
    obtain rfl := hclaims _ accepted
    refine .outrun vain (hreplaced ⟨_, hh _ lost, fun hborne => ?_⟩)
    cases hborne rfl rfl
  | redeemed accepted _ listed won expiry _ _ =>
    obtain rfl := hclaims _ accepted
    rw [expiry.resolve_right htimes] at won
    exact .redeemed listed won

/-- A refresh only succeeds where a pair can be issued whose refresh token lives for some time. -/
theorem refresh_untimely (huntimely : ¬ f.Timely i) (token : String) :
    ∃ e, (f.execute i (.refresh token)).1 = .error e := by
  obtain ⟨-, -, htold, hreason⟩ := preserved_working.perform (f := f) trivial (i := i)
    (o := .refresh token) trivial
    ((Operation.redeems (f.issuer i) (.refresh token)).mono (fun _ _ hr => hr.1) fun _ _ hr => hr)
  have hending : RefreshEnding (f.issuer i).config token (f.history i (.refresh token))
    (f.execute i (.refresh token)).1 := hreason
  generalize (f.execute i (.refresh token)).1 = result at hending ⊢
  cases hending with
  | redeemed _ _ _ _ _ spans lasts =>
    obtain ⟨time, htime, hdeadlines, hdeadline⟩ := spans
    obtain ⟨later, hlater, hsome⟩ := lasts
    rw [htold time htime] at hdeadlines hdeadline
    rw [htold later hlater, Instant.remaining?_deadline hdeadline] at hsome
    refine absurd ⟨hdeadlines, Bool.eq_false_iff.2 fun hzero => ?_⟩ huntimely
    rw [if_pos hzero] at hsome
    cases hsome
  | _ => exact ⟨_, rfl⟩

end Bearer
