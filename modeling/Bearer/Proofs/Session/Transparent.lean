/-
  A single instance does not notice its session cache.

  Where no other instance writes, whatever is cached as a user's session is the
  one of record, or has ended.  A service that writes a user's row leaves the
  user apart: what is cached of that one user may be an older session, until the
  service has cached the new one or dropped the old one, which it does before it
  ends.  For that, the shared cache must answer all calls or none, since it
  could otherwise miss that a session is dropped and be asked for it later on.

  Main statements: `upkeep_faithful` and `sessions_transparent`.
-/
import Bearer.Proofs.Fleet.Upkeep
import Bearer.Proofs.Session.Lookup

namespace Bearer

/-- Whether an incident neither cuts the shared cache off nor brings it back. -/
def Incident.KeepsReach {n : Nat} : Incident n → Prop
  | .event (.outage ..) => False
  | _ => True

namespace Fleet

variable {f : MemoryFleet 1} {apart : UserId → Prop} {user : UserId} {s : Session}

/-- Whether a session is the one of record of a user, or has ended. -/
def Mirrors (f : MemoryFleet 1) (user : UserId) (s : Session) : Prop :=
  f.origin.sessions.rows.get? user = some s ∨ s.expired f.wall = true

/-- Whether the cached sessions mirror the record, except for the users who are apart; a shared
cache that refuses calls has nothing to show. -/
structure Mirrored (apart : UserId → Prop) (f : MemoryFleet 1) : Prop where
  coherent : f.origin.sessions.Coherent
  barren : f.shared.Unreachable → f.shared.entries = Table.empty
  cached : ∀ user, ¬ apart user →
    f.Holds (.under (Key.session user) .session fun s _ => f.Mirrors user s) 0

/-- Whether all cached sessions mirror the record. -/
abbrev Faithful (f : MemoryFleet 1) : Prop := f.Mirrored fun _ => False

theorem Fresh.mirrored (h : f.Fresh) : f.Mirrored apart where
  coherent := h.coherent
  barren _ := h.shared
  cached _ _ := h.holds _ 0

/-! ## Incidents and requests -/

theorem befall_shared {e : Incident 1} (he : e.KeepsReach) : (f.befall e).shared = f.shared := by
  cases e with
  | event e =>
    cases e with
    | outage offline timingOut => exact absurd he id
    | _ => rfl
  | evict i key => rfl

theorem Mirrors.befall (h : f.Mirrors user s) (e : Incident 1) :
    (f.befall e).Mirrors user s := by
  rcases h with hrow | hended
  · refine Or.inl ?_
    rw [befall_origin]
    exact hrow
  · exact Or.inr (Session.expired_mono hended (befall_wall f e))

theorem stable_mirrored : Stable Incident.KeepsReach (Mirrored apart) := by
  intro f e he h
  refine ⟨?_, ?_, fun user huser => ?_⟩
  · rw [befall_origin]
    exact h.coherent
  · rw [befall_shared he]
    exact h.barren
  · exact ((h.cached user huser).imp fun _ _ hs => hs.befall e).befall e

theorem stable_row : Stable Incident.KeepsReach fun f : MemoryFleet 1 =>
    f.origin.sessions.rows.get? user = some s := by
  intro f e _ hrow
  rw [befall_origin]
  exact hrow

/-- Whether a request writes the rows of users who are apart only, purges only what has ended, and
caches only what mirrors the record. -/
def Calm (apart : UserId → Prop) (f : MemoryFleet 1) : Request → Prop
  | .session c => (∀ user, c.subject? = some user → apart user) ∧
      ∀ time, c = .deleteExpired time → time ≤ f.wall
  | .cache c => ∀ user config, ¬ apart user → TieredCache.Keeps
      (.under (Key.session user) .session fun s _ => f.Mirrors user s) f.clock config c
  | _ => True

theorem Mirrors.answer (h : f.Mirrors user s) {r : Request} (hr : Calm apart f r)
    (huser : ¬ apart user) : (answer 0 r f).2.Mirrors user s := by
  unfold Mirrors
  rw [answer_wall, answer_sessions]
  rcases h with hrow | hended
  · cases r with
    | session c =>
      have hne : c.subject? ≠ some user := fun heq => huser (hr.1 user heq)
      rcases SessionStore.row_of_perform_of_ne hne hrow with hkept | ⟨time, hc, hended⟩
      · exact Or.inl hkept
      · exact Or.inr (Session.expired_mono hended (hr.2 time hc))
    | _ => exact Or.inl hrow
  · exact Or.inr hended

theorem Mirrored.answer (h : f.Mirrored apart) {r : Request} (hr : Calm apart f r) :
    (answer 0 r f).2.Mirrored apart := by
  refine ⟨?_, fun hrefuses => ?_, fun user huser => ?_⟩
  · exact coherent_answer h.coherent 0 r
  · rw [answer_unreachable] at hrefuses
    rw [answer_shared]
    cases r with
    | cache c =>
      dsimp only
      rw [TieredCache.perform_untouched hrefuses]
      exact h.barren hrefuses
    | _ => exact h.barren hrefuses
  · -- The request keeps the rule that the fleet had before it, and what mirrored still does.
    have hkept : (Fleet.answer 0 r f).2.Holds
        (.under (Key.session user) .session fun s _ => f.Mirrors user s) 0 := by
      refine (h.cached user huser).answer (EntryRule.shortens_under fun _ _ _ hm _ => hm) ?_
      rintro c rfl
      exact hr user _ huser
    exact hkept.imp fun _ _ hs => hs.answer hr huser

theorem Mirrored.weaken (h : f.Faithful) : f.Mirrored apart where
  coherent := h.coherent
  barren := h.barren
  cached user _ := h.cached user id

/-- The requests of the revocation service leave sessions alone. -/
theorem calm_of_revocations {r : Request} (hr : r.OfRevocations) : Calm apart f r := by
  cases r with
  | cache c =>
    intro user config _
    cases c with
    | store kind key value ttl =>
      cases kind with
      | revocation =>
        obtain rfl := hr
        exact keeps_under_of_ne (Key.session_ne_blacklist _ _).symm .revocation value ttl
      | cutoff =>
        obtain rfl := hr
        exact keeps_under_of_ne (Key.session_ne_cutoff _ _).symm .cutoff value ttl
      | _ => exact absurd hr id
    | fetch kind key => trivial
    | _ => exact absurd hr id
  | session c => exact absurd hr id
  | _ => trivial

/-- A call that leaves the rows as they are leaves the fleet as it is. -/
theorem answer_session_of_eq {c : SessionCall}
    (hsame : (f.origin.sessions.perform c).2 = f.origin.sessions) :
    (Fleet.answer 0 (.session c) f).2 = f := by
  show { f with origin := { f.origin with sessions := (f.origin.sessions.perform c).2 } } = f
  rw [hsame]

/-- A call that only reads the rows is calm. -/
theorem Mirrored.read (h : f.Mirrored apart) {c : SessionCall} (hc : c.subject? = none)
    (hkeeps : ∀ time, c ≠ .deleteExpired time) :
    (Fleet.answer 0 (.session c) f).2.Mirrored apart := by
  have hcalm : Calm apart f (.session c) := by
    refine ⟨fun user heq => ?_, fun time heq => absurd heq (hkeeps time)⟩
    rw [hc] at heq
    cases heq
  exact h.answer hcalm

/-! ## Being apart -/

/-- A call about a user's row puts the user apart. -/
theorem Mirrored.write (h : f.Faithful) {c : SessionCall}
    (hc : c.subject? = some user) : (Fleet.answer 0 (.session c) f).2.Mirrored (· = user) := by
  have hcalm : Calm (· = user) f (.session c) := by
    refine ⟨fun other heq => Option.some.inj (heq.symm.trans hc), fun time heq => ?_⟩
    subst heq
    cases hc
  exact h.weaken.answer hcalm

/-- A user is not apart any more once what is cached mirrors the record. -/
theorem Mirrored.close (h : f.Mirrored (· = user))
    (hheld : f.Holds (.under (Key.session user) .session fun s _ => f.Mirrors user s) 0) :
    f.Faithful := by
  refine ⟨h.coherent, h.barren, fun other _ => ?_⟩
  by_cases heq : other = user
  · subst heq
    exact hheld
  · exact h.cached other heq

theorem Mirrored.drop (h : f.Mirrored (· = user)) :
    (Fleet.answer 0 (.cache (.delete (Key.session user))) f).2.Faithful := by
  have hafter : (Fleet.answer 0 (.cache (.delete (Key.session user))) f).2.Mirrored (· = user) :=
    h.answer fun _ _ _ => trivial
  exact hafter.close (Holds.of_delete _ _ _ h.barren)

theorem Mirrored.store (h : f.Mirrored (· = user))
    (hrow : f.origin.sessions.rows.get? user = some s) (ttl : Duration) :
    (Fleet.answer 0 (.cache (.store .session (Key.session user) s (some ttl))) f).2.Faithful := by
  have hcalm : Calm (· = user) f (.cache (.store .session (Key.session user) s (some ttl))) := by
    intro other config hne
    have hkey : Key.session user ≠ Key.session other := fun heq =>
      hne (Key.session_injective heq).symm
    exact keeps_under_of_ne hkey .session s (some ttl)
  exact (h.answer hcalm).close (Holds.of_store _ _ ttl h.barren fun _ => Or.inl hrow)

/-! ## The session service -/

theorem mirrored_invalidate (user : UserId) :
    Ensures Incident.KeepsReach 0 (Mirrored (· = user)) (Sessions.invalidate user)
      fun _ => Faithful := by
  have hdelete : Ensures Incident.KeepsReach 0 (Mirrored (· = user))
      (Service.cache (.delete (Key.session user))) fun _ => Faithful :=
    ensures_cache stable_mirrored _ fun f hf => hf.drop
  exact hdelete.bind (fun _ => upholds_pure _) fun _ _ hf => hf

/-- Caching the session of record of a user who is apart settles what is cached of the user. -/
theorem mirrored_keep (s : Session) :
    Ensures Incident.KeepsReach 0
      (fun f => f.Mirrored (· = s.user) ∧ f.origin.sessions.rows.get? s.user = some s)
      (Sessions.keep s) fun _ => Faithful := by
  have hstable : Stable Incident.KeepsReach fun f : MemoryFleet 1 =>
      f.Mirrored (· = s.user) ∧ f.origin.sessions.rows.get? s.user = some s :=
    stable_mirrored.and stable_row
  refine ensures_ask_bind hstable .now (fun _ f => f.Mirrored (· = s.user) ∧
    f.origin.sessions.rows.get? s.user = some s) (fun f hf => hf) fun time => ?_
  split
  · next ttl _ =>
    have hstore : Ensures Incident.KeepsReach 0
        (fun f => f.Mirrored (· = s.user) ∧ f.origin.sessions.rows.get? s.user = some s)
        (Service.cache (.store .session (Key.session s.user) s (some ttl)))
        fun _ => Faithful :=
      ensures_cache hstable _ fun f hf => hf.1.store hf.2 ttl
    exact hstore.bind (fun _ => upholds_pure _) fun _ _ hf => hf
  · exact (mirrored_invalidate s.user).of_imp fun f hf => hf.1

theorem faithful_load (user : UserId) (ended : Bool) :
    Upholds Incident.KeepsReach 0 Faithful (Sessions.load user ended) := by
  refine Upholds.bind (ensures_now stable_mirrored fun _ hf => hf) fun time => ?_
  have hfind : Ensures Incident.KeepsReach 0 Faithful
      (Service.session (.findByUser user time))
      fun result f => ∃ found, result = .ok found ∧ f.Faithful ∧
        ∀ s ∈ found, f.origin.sessions.rows.get? s.user = some s := by
    refine ensures_session stable_mirrored _ fun f hf => ⟨_, rfl, ?_, fun s hs => ?_⟩
    · exact hf.read rfl fun time => SessionCall.noConfusion
    · -- The row found is kept under its own user.
      have hrow : f.origin.sessions.rows.get? user = some s :=
        (SessionStore.findByUser_eq_some_iff.1 hs).1
      rw [hf.coherent.keyed user s hrow]
      exact hrow
  refine hfind.bind_ok fun found => ?_
  cases found with
  | none => exact ensures_throw _ fun _ hf => hf.1
  | some s =>
    refine Ensures.bind ((mirrored_keep s).of_imp fun f hf => ?_) (fun _ => upholds_pure _)
      fun _ _ hf => hf
    exact ⟨hf.1.weaken, hf.2 s rfl⟩

theorem faithful_get (user : UserId) :
    Upholds Incident.KeepsReach 0 Faithful (Sessions.get user) := by
  refine Upholds.bind (ensures_cache stable_mirrored _ fun f hf => hf.answer fun _ _ _ => trivial)
    fun cached => ?_
  split
  · refine Upholds.bind (ensures_now stable_mirrored fun _ hf => hf) fun time => ?_
    split
    · have hdrop : Upholds Incident.KeepsReach 0 Faithful
          (Sessions.invalidate user) :=
        (mirrored_invalidate user).of_imp fun f hf => hf.weaken
      exact hdrop.bind fun _ => faithful_load user true
    · exact upholds_pure _
  · exact faithful_load user false

theorem faithful_create (user : UserId) (token : String) (expiresAt : Instant) :
    Upholds Incident.KeepsReach 0 Faithful
      (Sessions.create user token expiresAt) := by
  refine Upholds.bind (ensures_now stable_mirrored fun _ hf => hf) fun createdAt => ?_
  have hupsert : Ensures Incident.KeepsReach 0 Faithful
      (Service.session (.upsert user token expiresAt createdAt))
      fun result f => match result with
        | .ok s => f.Mirrored (· = s.user) ∧ f.origin.sessions.rows.get? s.user = some s
        | .error _ => f.Faithful := by
    refine ensures_session stable_mirrored _ fun f hf => ?_
    rcases SessionStore.upsert_cases f.origin.sessions user token expiresAt createdAt with
      ⟨row, hreply, hrow⟩ | ⟨⟨e, hreply⟩, hsame⟩
    · rw [hreply]
      dsimp only
      rw [(hf.coherent.perform (.upsert user token expiresAt createdAt)).keyed user row hrow]
      exact ⟨hf.write rfl, hrow⟩
    · rw [hreply, answer_session_of_eq hsame]
      exact hf
  exact hupsert.bind (fun s => (mirrored_keep s).bind (fun _ => upholds_pure _)
    fun _ _ hf => hf) fun _ _ hf => hf

theorem faithful_writeToken (user : UserId) (expected : Option String) (token : String)
    (ttl : Duration) :
    Upholds Incident.KeepsReach 0 Faithful
      (Sessions.writeToken user expected token ttl) := by
  refine Upholds.bind (ensures_now stable_mirrored fun _ hf => hf) fun time => ?_
  refine (upholds_lift _).bind fun expiresAt => ?_
  -- Only an update that has been made leaves the user apart.
  have hupdate : Ensures Incident.KeepsReach 0 Faithful
      (Service.session (.updateToken user expected token expiresAt))
      fun result f => f.Mirrored (· = user) ∧
        (result ≠ .ok true → f.Faithful) := by
    refine ensures_session stable_mirrored _ fun f hf => ⟨hf.write rfl, fun hfailed => ?_⟩
    rw [answer_session_of_eq (SessionStore.perform_of_not_updated hfailed)]
    exact hf
  refine hupdate.bind (fun written => ?_) fun e f hf => hf.2 nofun
  cases written with
  | true => exact (mirrored_invalidate user).of_imp fun f hf => hf.1
  | false => exact ensures_throw _ fun f hf => hf.2 nofun

theorem faithful_delete (user : UserId) :
    Upholds Incident.KeepsReach 0 Faithful (Sessions.delete user) := by
  have hdelete : Ensures Incident.KeepsReach 0 Faithful
      (Service.session (.deleteByUser user)) fun result f =>
        ∃ found, result = .ok found ∧ f.Mirrored (· = user) :=
    ensures_session stable_mirrored _ fun f hf => ⟨_, rfl, hf.write rfl⟩
  exact hdelete.bind_ok fun _ => mirrored_invalidate user

theorem faithful_purge :
    Upholds Incident.KeepsReach 0 Faithful Sessions.purge := by
  refine upholds_now_bind stable_mirrored fun time => ?_
  refine ensures_session (stable_mirrored.and (stable_shown time)) _ fun f hf => ?_
  have hcalm : Calm (fun _ => False) f (.session (.deleteExpired time)) := by
    refine ⟨nofun, fun later heq => ?_⟩
    obtain rfl := SessionCall.deleteExpired.inj heq
    exact hf.2
  exact hf.1.answer hcalm

/-- Every call of the session service leaves the cached sessions mirroring the record. -/
theorem faithful_sessionTask (t : SessionTask) :
    Upholds Incident.KeepsReach 0 Faithful t.service := by
  cases t with
  | create user token expiresAt => exact faithful_create user token expiresAt
  | get user => exact faithful_get user
  | getByToken token =>
    refine Upholds.bind (ensures_now stable_mirrored fun _ hf => hf) fun time => ?_
    refine Upholds.bind (ensures_session stable_mirrored _ fun f hf => ?_) fun found => ?_
    · exact hf.read rfl fun time => SessionCall.noConfusion
    · split
      · exact upholds_pure _
      · exact upholds_lift (.error _)
  | update user token ttl => exact faithful_writeToken user none token ttl
  | rotate user old token ttl => exact faithful_writeToken user (some old) token ttl
  | delete user => exact faithful_delete user
  | purge => exact faithful_purge

/-- Every task of an instance that is alone leaves the cached sessions mirroring the record. -/
theorem upkeep_faithful (issuer : Issuer) :
    Upkeep Incident.KeepsReach 0 issuer Faithful where
  stable := stable_mirrored
  freshTokenId _ hf := hf.answer (r := .freshTokenId) trivial
  user c _ hf := hf.answer (r := .user c) trivial
  invalidate pattern _ hf := hf.answer (r := .cache (.invalidate pattern)) fun _ _ _ => trivial
  session := faithful_sessionTask
  revocation t := Upholds.of_confined stable_mirrored t.confined fun _ hr _ hf =>
    hf.answer (calm_of_revocations hr)
  revoke kind token := Upholds.of_confined stable_mirrored (issuer.confined_revoke kind token)
    fun _ hr _ hf => hf.answer (calm_of_revocations hr)

/-! ## The answer -/

/-- What is found cached of a user is the session of record, or has ended. -/
theorem Mirrored.mirrors_of_finds (h : f.Faithful)
    (hfinds : f.finds 0 .session (Key.session user) = some s) : f.Mirrors user s := by
  rw [← answer_fetch] at hfinds
  obtain ⟨-, hmirrors, -⟩ := (h.cached user id).of_fetch hfinds
  exact hmirrors

/-- Whether or not a session is cached, a look-up answers the session of record. -/
theorem Mirrored.sessionOf_eq_ok_iff (h : f.Faithful) :
    f.sessionOf 0 user = .ok s ↔
      f.origin.sessions.rows.get? user = some s ∧ f.wall < s.expiresAt := by
  have hrecorded : ∀ e, f.recordedOr user e = .ok s ↔
      f.origin.sessions.rows.get? user = some s ∧ f.wall < s.expiresAt := by
    intro e
    rw [recordedOr_eq_ok_iff, SessionStore.findByUser_eq_some_iff]
  unfold sessionOf
  split
  · next cached hfinds =>
    split
    · exact hrecorded _
    · next hlive =>
      rw [Bool.not_eq_true] at hlive
      have hrow : f.origin.sessions.rows.get? user = some cached :=
        (h.mirrors_of_finds hfinds).resolve_right (by simp [hlive])
      rw [Session.expired_eq_false_iff] at hlive
      constructor
      · intro heq
        obtain rfl := Except.ok.inj heq
        exact ⟨hrow, hlive⟩
      · rintro ⟨hrow', -⟩
        rw [Option.some.inj (hrow.symm.trans hrow')]
  · exact hrecorded _

/-- A cached session holds a token only if the session of record does. -/
theorem Mirrored.recordHolds_of_cachedHolds (h : f.Faithful) {token : String}
    (hcached : f.cachedHolds 0 user token = true) : f.recordHolds user token = true := by
  rw [cachedHolds, Option.any_eq_true] at hcached
  obtain ⟨s, hfinds, hs⟩ := hcached
  rw [Bool.and_eq_true, Bool.not_eq_true', decide_eq_true_eq] at hs
  have hrow : f.origin.sessions.rows.get? user = some s :=
    (h.mirrors_of_finds hfinds).resolve_right (by simp [hs.1])
  exact recordHolds_eq_true_iff.2 ⟨s, hrow, (Session.expired_eq_false_iff ..).1 hs.1, hs.2⟩

/-- After any run of an instance that is alone, with a shared cache that answers all calls, answers
none or is not used: a look-up answers a session exactly if it is the user's session of record and
has not ended, and a user is told to hold a token exactly if that session holds it. -/
theorem sessions_transparent (hfresh : f.Fresh) {acts : List (Act 1)}
    (hacts : ∀ a ∈ acts, a.Only Incident.KeepsReach) (user : UserId) (token : String) :
    let g := f.enact acts
    (∀ s, (g.perform 0 (Sessions.get user)).1 = .ok s ↔
      g.origin.sessions.rows.get? user = some s ∧ g.wall < s.expiresAt) ∧
    ∃ held, (g.execute 0 (.holdsToken user token)).1 = .ok held ∧
      (held = true ↔ ∃ row, g.origin.sessions.rows.get? user = some row ∧
        g.wall < row.expiresAt ∧ row.refreshToken = token) := by
  intro g
  have hfaithful : g.Faithful := by
    refine Upkeep.enact (fun f i _ => ?_) stable_mirrored hfresh.mirrored hacts
    obtain rfl : i = 0 := Subsingleton.elim i 0
    exact upkeep_faithful _
  refine ⟨fun s => ?_, _, execute_holdsToken hfaithful.coherent 0 user token, ?_⟩
  · have hget : (g.perform 0 (Sessions.get user)).1 = g.sessionOf 0 user :=
      execute_session g 0 user
    rw [hget]
    exact hfaithful.sessionOf_eq_ok_iff
  · rw [Bool.or_eq_true, ← recordHolds_eq_true_iff]
    exact or_iff_right_of_imp hfaithful.recordHolds_of_cachedHolds

/-- One demo instance. -/
def alone : MemoryFleet 1 := start 1 .epoch demo.origin.users .default demoIssuer

/-- The demo user's session is cached and given another token, while time passes and the local cache
is swept. -/
def demoRotation (i : Fin 1) : List (Act 1) :=
  [.carry i (.session (.create demoUser "old" demoMinute)) [],
    .carry i (.session (.rotate demoUser "old" "new" (.ofSeconds 50)))
      [[.event (.pass (.ofSeconds 10) (.ofSeconds 10))], [.event (.sweep i)]],
    .carry i (.operation .tidy) []]

/-- The session is found with its new token, which the user is told to hold. -/
theorem sessions_transparent_rotated :
    ((alone.enact (demoRotation 0)).perform 0 (Sessions.get demoUser)).1 = .ok demoSession ∧
      ((alone.enact (demoRotation 0)).execute 0 (.holdsToken demoUser "new")).1 = .ok true := by
  have hfresh : alone.Fresh := fresh_start ..
  have hacts : ∀ a ∈ demoRotation 0, a.Only Incident.KeepsReach := by
    simp [demoRotation, Act.Only, Incident.KeepsReach]
  obtain ⟨hget, held, hholds, hheld⟩ := sessions_transparent hfresh hacts demoUser "new"
  have hrow : (alone.enact (demoRotation 0)).origin.sessions.rows.get? demoUser =
      some demoSession := by decide
  have hlive : (alone.enact (demoRotation 0)).wall < demoSession.expiresAt := by decide
  refine ⟨(hget demoSession).2 ⟨hrow, hlive⟩, ?_⟩
  rw [hheld.2 ⟨demoSession, hrow, hlive, rfl⟩] at hholds
  exact hholds

end Fleet

end Bearer
