/-
  Fleets that answer alike.

  Two fleets are alike if they differ only in rows that have elapsed, in the
  numbers of sessions and in the times at which revocations were first written.
  A service that is run in both ends alike as long as its requests are answered
  alike, and each kind of request is: so a service can be gone through line by
  line in both fleets at once.

  Main statements: `Alike.happen`, the rule `Twins.bind` and the rules for the
  requests.
-/
import Bearer.Proofs.Cache.Alike
import Bearer.Proofs.Fleet.Issue
import Bearer.Proofs.Store.Alike

namespace Bearer

/-- Whether both end with the same error, or with answers that belong together. -/
def SameOutcome {α β : Type} (answers : α → β → Prop) :
    Except AuthError α → Except AuthError β → Prop
  | .ok a, .ok b => answers a b
  | .error e, .error e' => e = e'
  | _, _ => False

theorem SameOutcome.error_or_ok {α β : Type} {answers : α → β → Prop} {result : Except AuthError α}
    {result' : Except AuthError β} (h : SameOutcome answers result result') :
    (∃ e, result = .error e ∧ result' = .error e) ∨
      ∃ a b, result = .ok a ∧ result' = .ok b ∧ answers a b := by
  cases result with
  | error e => cases result' with
    | error e' => exact Or.inl ⟨e, rfl, congrArg _ (Eq.symm h)⟩
    | ok b => exact absurd h id
  | ok a => cases result' with
    | error e' => exact absurd h id
    | ok b => exact Or.inr ⟨a, b, rfl, rfl, h⟩

namespace Fleet

variable {n : Nat} {f f' : MemoryFleet n} {i : Fin n} {user : UserId} {token : String}

/-- Whether two fleets differ in nothing that shows. -/
structure Alike (f f' : MemoryFleet n) : Prop where
  wall : f.wall = f'.wall
  clock : f.clock = f'.clock
  ids : f.ids = f'.ids
  minted : f.minted = f'.minted
  users : f.origin.users = f'.origin.users
  drawn : f.AllDrawn
  drawn' : f'.AllDrawn
  sessions : SessionStore.Alike f.wall f.origin.sessions f'.origin.sessions
  revocations : RevocationStore.Alike f.wall f.origin.revocations f'.origin.revocations
  shared : f.shared.Alike f'.shared
  caches : ∀ j : Fin n, (f.cache j).Alike (f'.cache j)
  issuers : ∀ j : Fin n, f.issuer j = f'.issuer j
  revoked : ∀ j : Fin n, f.revoked j = f'.revoked j

theorem Alike.onward (h : f.Alike f') : f.Onward f' := ⟨h.ids.symm, Nat.le_of_eq h.minted⟩

/-! ## Events -/

theorem Alike.happen (h : f.Alike f') (e : Event n) : (f.happen e).Alike (f'.happen e) := by
  cases e with
  | pass byWall byClock =>
    have hwall : (f.happen (.pass byWall byClock)).wall = (f'.happen (.pass byWall byClock)).wall := by
      show (f.wall.deadline? byWall).getD f.wall = (f'.wall.deadline? byWall).getD f'.wall
      rw [h.wall]
    have hlater := happen_wall f (.pass byWall byClock)
    exact { h with
      wall := hwall
      clock := congrArg (fun m : Moment => m.after byClock) h.clock
      sessions := h.sessions.later hlater
      revocations := h.revocations.later hlater }
  | outage offline timingOut => exact { h with shared := ⟨rfl, rfl, h.shared.entries⟩ }
  | sweep k =>
    refine { h with
      caches := fun j => ?_
      issuers := fun j => ?_
      revoked := fun j => ?_ }
    · -- Both instances have swept, or neither has.
      have hcache : ∀ g : MemoryFleet n, (g.happen (.sweep k)).cache j =
          if k = j then { g.cache k with near := (g.cache k).near.purge g.clock }
          else g.cache j := by
        intro g
        show ((modifyInstance g k _).instances.get j).cache = _
        rw [get_modifyInstance]
        split <;> rfl
      rw [hcache, hcache, h.clock]
      split
      · exact ⟨(h.caches k).config, (h.caches k).hasShared, (h.caches k).near.purge f'.clock⟩
      · exact h.caches j
    · rw [happen_issuer, happen_issuer, h.issuers]
    · rw [happen_revoked, happen_revoked, h.revoked]

/-! ## Requests -/

/-- Sessions go on holding drawn tokens if they are given none but such. -/
theorem AllDrawn.session (h : f.AllDrawn) (i : Fin n) {c : SessionCall}
    (hgift : ∀ gift ∈ c.gift?, f.Drawn gift.2) : (answer i (.session c) f).2.AllDrawn := by
  intro user row hrow
  rw [answer_sessions] at hrow
  rcases SessionStore.row_of_perform hrow with hold | hgiven
  · exact h user row hold
  · exact hgift _ hgiven

/-- What a call leaves in an instance's cache and in the shared one decides. -/
theorem Alike.cache (h : f.Alike f') (i : Fin n) {c c' : CacheCall}
    (hafter : ((f.cache i).perform c f.clock f.shared).1.2.Alike
        ((f'.cache i).perform c' f.clock f'.shared).1.2 ∧
      ((f.cache i).perform c f.clock f.shared).2.2.Alike
        ((f'.cache i).perform c' f.clock f'.shared).2.2) :
    (answer i (.cache c) f).2.Alike (answer i (.cache c') f').2 := by
  obtain ⟨hcache, hshared⟩ := hafter
  rw [h.clock] at hcache hshared
  refine { h with
    clock := ?_
    shared := ?_
    caches := fun j => ?_
    issuers := fun j => ?_
    revoked := fun j => ?_ }
  · rw [answer_clock, answer_clock, h.clock]
  · rw [answer_shared, answer_shared]
    dsimp only
    rw [h.clock]
    exact hshared
  · rw [answer_cache, answer_cache]
    dsimp only
    rw [h.clock]
    split
    · exact hcache
    · exact h.caches j
  · rw [answer_issuer, answer_issuer, h.issuers]
  · rw [answer_revoked, answer_revoked]
    exact h.revoked j

theorem Alike.freshTokenId (h : f.Alike f') (i : Fin n) :
    (answer i .freshTokenId f).2.Alike (answer i .freshTokenId f').2 :=
  { h with
    minted := congrArg Nat.succ h.minted
    drawn := fun user row hrow => (h.drawn user row hrow).mono (answer_onward f i _)
    drawn' := fun user row hrow => (h.drawn' user row hrow).mono (answer_onward f' i _) }

theorem Alike.remember (h : f.Alike f') (i : Fin n) (tokenId : String) (expiresAt : Instant) :
    (answer i (.remember tokenId expiresAt) f).2.Alike
      (answer i (.remember tokenId expiresAt) f').2 := by
  refine { h with
    caches := fun j => ?_
    issuers := fun j => ?_
    revoked := fun j => ?_ }
  · rw [answer_cache, answer_cache]
    exact h.caches j
  · rw [answer_issuer, answer_issuer, h.issuers]
  · rw [answer_revoked, answer_revoked]
    dsimp only
    rw [h.revoked, h.wall, h.revoked]

/-! ## Rules -/

variable {α β α' β' : Type}

/-- Whether a service in one fleet and a service in another one end alike and leave them alike. -/
def Twins (i : Fin n) (answers : α → α' → Prop) (s : Service α) (s' : Service α')
    (f f' : MemoryFleet n) : Prop :=
  (f.perform i s).2.Alike (f'.perform i s').2 ∧
    SameOutcome answers (f.perform i s).1 (f'.perform i s').1

variable {answers : α → α' → Prop} {results : β → β' → Prop}
variable {s : Service α} {s' : Service α'}

/-- What comes next may use what the first parts have ended with. -/
theorem Twins.bind (h : Twins i answers s s' f f') {next : α → Service β} {next' : α' → Service β'}
    (hnext : ∀ a a' g g', f.perform i s = (.ok a, g) → f'.perform i s' = (.ok a', g') →
      g.Alike g' → answers a a' → Twins i results (next a) (next' a') g g') :
    Twins i results (s >>= next) (s' >>= next') f f' := by
  obtain ⟨halike, houtcome⟩ := h
  unfold Twins
  rw [perform_bind, perform_bind]
  cases hfirst : f.perform i s with
  | mk result g =>
    cases hfirst' : f'.perform i s' with
    | mk result' g' =>
      rw [hfirst, hfirst'] at halike houtcome
      obtain ⟨e, rfl, rfl⟩ | ⟨a, a', rfl, rfl, hanswers⟩ := houtcome.error_or_ok
      · exact ⟨halike, rfl⟩
      · exact hnext a a' g g' hfirst hfirst' halike hanswers

/-- What comes next is the same for all fleets that are alike. -/
theorem Twins.next (h : Twins i answers s s' f f') {next : α → Service β}
    {next' : α' → Service β'}
    (hnext : ∀ {g g' : MemoryFleet n}, g.Alike g' → ∀ a a', answers a a' →
      Twins i results (next a) (next' a') g g') :
    Twins i results (s >>= next) (s' >>= next') f f' :=
  h.bind fun a a' _ _ _ _ halike hanswers => hnext halike a a' hanswers

/-- What comes next is the same, too, where both have ended with the same answer. -/
theorem Twins.nextSame {s s' : Service α} (h : Twins i (· = ·) s s' f f') {next : α → Service β}
    {next' : α → Service β'}
    (hnext : ∀ {g g' : MemoryFleet n}, g.Alike g' → ∀ a,
      Twins i results (next a) (next' a) g g') :
    Twins i results (s >>= next) (s' >>= next') f f' := by
  refine h.next fun halike a a' hsame => ?_
  subst hsame
  exact hnext halike a

theorem twins_pure (h : f.Alike f') {a : α} {a' : α'} (ha : answers a a') :
    Twins i answers (pure a) (pure a') f f' := ⟨h, ha⟩

theorem twins_throw (h : f.Alike f') (e : AuthError) :
    Twins i answers (throw e) (throw e) f f' := ⟨h, rfl⟩

/-- What comes after an error is not asked. -/
theorem twins_throw_bind (h : f.Alike f') (e : AuthError) (next : α → Service β)
    (next' : α' → Service β') :
    Twins i results (throw e >>= next) (throw e >>= next') f f' := ⟨h, rfl⟩

theorem twins_lift (h : f.Alike f') (verdict : Except AuthError α) :
    Twins i (· = ·) (liftM verdict : Service α) (liftM verdict : Service α) f f' := by
  cases verdict <;> exact ⟨h, rfl⟩

theorem twins_attempt (h : Twins i answers s s' f f') :
    Twins i (SameOutcome answers) (ExceptT.lift s.run) (ExceptT.lift s'.run) f f' := by
  unfold Twins
  rw [perform_attempt, perform_attempt]
  exact h

/-- Both fleets show the same time. -/
theorem twins_now (h : f.Alike f') {next : Instant → Service α} {next' : Instant → Service α'}
    (hnext : Twins i answers (next f.wall) (next' f.wall) f f') :
    Twins i answers (Service.now >>= next) (Service.now >>= next') f f' := by
  unfold Twins
  rw [perform_bind, perform_bind]
  have hnow : ∀ g : MemoryFleet n, g.perform i Service.now = (.ok g.wall, g) := fun _ => rfl
  rw [hnow, hnow, ← h.wall]
  exact hnext

/-! ## Requests one by one -/

theorem twins_freshTokenId (h : f.Alike f') :
    Twins i (· = ·) (Service.ask .freshTokenId) (Service.ask .freshTokenId) f f' := by
  refine ⟨h.freshTokenId i, ?_⟩
  show f.ids.id (f.minted + 1) = f'.ids.id (f'.minted + 1)
  rw [h.ids, h.minted]

theorem twins_isRemembered (h : f.Alike f') (tokenId : String) :
    Twins i (· = ·) (Service.ask (.isRemembered tokenId)) (Service.ask (.isRemembered tokenId))
      f f' := by
  refine ⟨h, ?_⟩
  show (f.revoked i).contains f.wall tokenId = (f'.revoked i).contains f'.wall tokenId
  rw [h.revoked, h.wall]

theorem twins_remember (h : f.Alike f') (tokenId : String) (expiresAt : Instant) :
    Twins i (fun _ _ => True) (Service.ask (.remember tokenId expiresAt))
      (Service.ask (.remember tokenId expiresAt)) f f' :=
  ⟨h.remember i tokenId expiresAt, trivial⟩

theorem twins_user (h : f.Alike f') (c : UserCall) :
    Twins i (· = ·) (Service.user c) (Service.user c) f f' := by
  have hreply : f.origin.users.perform f.wall c = f'.origin.users.perform f'.wall c := by
    rw [h.users, h.wall]
  refine ⟨{ h with users := congrArg Prod.snd hreply }, ?_⟩
  show SameOutcome _ (f.origin.users.perform f.wall c).1 (f'.origin.users.perform f'.wall c).1
  rw [hreply]
  cases (f'.origin.users.perform f'.wall c).1 <;> exact rfl

theorem twins_updateUser (h : f.Alike f') (user : User) :
    Twins i (fun _ _ => True) (Service.ask (.user (.update user)))
      (Service.ask (.user (.update user))) f f' := by
  have hreply : f.origin.users.perform f.wall (.update user) =
      f'.origin.users.perform f'.wall (.update user) := by
    rw [h.users, h.wall]
  exact ⟨{ h with users := congrArg Prod.snd hreply }, trivial⟩

theorem twins_session (h : f.Alike f') (c : SessionCall)
    (hgift : ∀ gift ∈ c.gift?, f.Drawn gift.2)
    (hafter : SessionStore.Alike f.wall (f.origin.sessions.perform c).2
      (f'.origin.sessions.perform c).2) {answers : c.Answer → c.Answer → Prop}
    (hanswers : SameOutcome answers (f.origin.sessions.perform c).1
      (f'.origin.sessions.perform c).1) :
    Twins i answers (Service.session c) (Service.session c) f f' :=
  ⟨{ h with
      drawn := h.drawn.session i hgift
      drawn' := h.drawn'.session i fun gift hc => (hgift gift hc).mono h.onward
      sessions := hafter }, hanswers⟩

theorem twins_findByUser (h : f.Alike f') (user : UserId) :
    Twins i (fun a a' => a.map Session.unnumbered = a'.map Session.unnumbered)
      (Service.session (.findByUser user f.wall)) (Service.session (.findByUser user f.wall))
      f f' :=
  twins_session h (.findByUser user f.wall) (by simp [SessionCall.gift?]) h.sessions.looked_up
    (h.sessions.found user)

theorem twins_findByToken (h : f.Alike f') (token : String) :
    Twins i (fun a a' => a.map Session.unnumbered = a'.map Session.unnumbered)
      (Service.session (.findByToken token f.wall)) (Service.session (.findByToken token f.wall))
      f f' :=
  twins_session h (.findByToken token f.wall) (by simp [SessionCall.gift?]) h.sessions.looked_up
    (h.sessions.findByToken token)

theorem twins_deleteByUser (h : f.Alike f') (user : UserId) :
    Twins i (fun _ _ => True) (Service.session (.deleteByUser user))
      (Service.session (.deleteByUser user)) f f' :=
  twins_session h (.deleteByUser user) (by simp [SessionCall.gift?]) (h.sessions.delete user) trivial

/-- A token that no other user's session holds can be given to a session. -/
theorem twins_upsert (h : f.Alike f') (hdrawn : f.Drawn token)
    (hfree : f.origin.sessions.takenByOther user token = false)
    (hfree' : f'.origin.sessions.takenByOther user token = false)
    (expiresAt createdAt : Instant) :
    Twins i (fun s s' => s.unnumbered = s'.unnumbered)
      (Service.session (.upsert user token expiresAt createdAt))
      (Service.session (.upsert user token expiresAt createdAt)) f f' := by
  obtain ⟨row, row', hrow, hrow', hsame, -, halike⟩ :=
    h.sessions.upsert hfree hfree' expiresAt createdAt
  refine twins_session h _ (by simpa [SessionCall.gift?] using hdrawn) halike ?_
  rw [hrow, hrow']
  exact hsame

theorem twins_updateToken (h : f.Alike f') (hdrawn : f.Drawn token) {row : Session}
    (hrow : f.origin.sessions.findByUser user f.wall = some row)
    (hfree : f.origin.sessions.takenByOther user token = false)
    (hfree' : f'.origin.sessions.takenByOther user token = false) (expiresAt : Instant) :
    Twins i (· = ·)
      (Service.session (.updateToken user (some row.refreshToken) token expiresAt))
      (Service.session (.updateToken user (some row.refreshToken) token expiresAt)) f f' := by
  obtain ⟨hdone, hdone', halike⟩ := h.sessions.updateToken hrow hfree hfree' expiresAt
  refine twins_session h _ (by simpa [SessionCall.gift?] using hdrawn) halike ?_
  rw [hdone, hdone']
  exact rfl

theorem twins_revocation (h : f.Alike f') (c : RevocationCall)
    (hafter : RevocationStore.Alike f.wall (f.origin.revocations.perform f.wall c).2
      (f'.origin.revocations.perform f.wall c).2) {answers : c.Answer → c.Answer → Prop}
    (hanswers : SameOutcome answers (f.origin.revocations.perform f.wall c).1
      (f'.origin.revocations.perform f.wall c).1) :
    Twins i answers (Service.revocation c) (Service.revocation c) f f' := by
  have hreply : f'.perform i (Service.revocation c) =
      ((f'.origin.revocations.perform f.wall c).1,
        { f' with origin := { f'.origin with
          revocations := (f'.origin.revocations.perform f.wall c).2 } }) := by
    rw [h.wall]
    rfl
  unfold Twins
  rw [hreply]
  exact ⟨{ h with revocations := hafter }, hanswers⟩

theorem twins_insert (h : f.Alike f') (tokenId : String) (expiresAt : Instant) :
    Twins i (fun _ _ => True) (Service.revocation (.insert tokenId expiresAt))
      (Service.revocation (.insert tokenId expiresAt)) f f' :=
  twins_revocation h (.insert tokenId expiresAt) (h.revocations.insert tokenId expiresAt) trivial

theorem twins_findActive (h : f.Alike f') (tokenId : String) :
    Twins i (fun a a' => a.map Revocation.undated = a'.map Revocation.undated)
      (Service.revocation (.findActive tokenId f.wall))
      (Service.revocation (.findActive tokenId f.wall)) f f' :=
  twins_revocation h (.findActive tokenId f.wall) h.revocations.looked_up
    (h.revocations.active tokenId)

theorem twins_insertCutoff (h : f.Alike f') (user : UserId) (expiresAt : Instant) :
    Twins i (fun _ _ => True) (Service.revocation (.insertCutoff user f.wall expiresAt))
      (Service.revocation (.insertCutoff user f.wall expiresAt)) f f' :=
  twins_revocation h (.insertCutoff user f.wall expiresAt)
    (h.revocations.insertCutoff user expiresAt) trivial

theorem twins_findCutoff (h : f.Alike f') (user : UserId) :
    Twins i (· = ·) (Service.revocation (.findCutoff user f.wall))
      (Service.revocation (.findCutoff user f.wall)) f f' :=
  twins_revocation h (.findCutoff user f.wall) h.revocations
    (congrArg (Option.map CutoffRow.revokedBefore) (h.revocations.cutoff user))

theorem twins_fetch (h : f.Alike f') (kind : Kind) (key : String) :
    Twins i (fun a a' => a.map kind.essence = a'.map kind.essence)
      (Service.cache (.fetch kind key)) (Service.cache (.fetch kind key)) f f' := by
  obtain ⟨hfound, hafter⟩ := (h.caches i).fetch h.shared kind key f.clock
  refine ⟨h.cache i hafter, ?_⟩
  show Option.map _ ((f.cache i).perform (.fetch kind key) f.clock f.shared).1.1 =
    Option.map _ ((f'.cache i).perform (.fetch kind key) f'.clock f'.shared).1.1
  rw [← h.clock]
  exact hfound

theorem twins_store (h : f.Alike f') (kind : Kind) {value value' : kind.Content}
    (hvalue : kind.essence value = kind.essence value') (key : String) (ttl : Option Duration) :
    Twins i (fun _ _ => True) (Service.cache (.store kind key value ttl))
      (Service.cache (.store kind key value' ttl)) f f' :=
  ⟨h.cache i ((h.caches i).store h.shared hvalue key ttl f.clock), trivial⟩

theorem twins_delete (h : f.Alike f') (key : String) :
    Twins i (fun _ _ => True) (Service.cache (.delete key)) (Service.cache (.delete key)) f f' :=
  ⟨h.cache i ((h.caches i).delete h.shared key f.clock), trivial⟩

theorem twins_invalidate (h : f.Alike f') (pattern : String) :
    Twins i (fun _ _ => True) (Service.cache (.invalidate pattern))
      (Service.cache (.invalidate pattern)) f f' :=
  ⟨h.cache i ((h.caches i).invalidate h.shared pattern f.clock), trivial⟩

end Fleet

end Bearer
