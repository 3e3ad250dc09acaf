/-
  Whether a token is revoked, every instance answers as the record would.

  An issuer's memory and both tiers of a cache answer before the record does.
  They can only answer yes, and what they know has been put on record and stays
  there as long as it matters, because only what has expired is purged.  A
  revocation that they do not know, or know with too early an end, is looked up.
  Only while it revokes a token does an issuer remember more than the record
  knows.

  Main statements: `Agreed.upkeep` and `isRevoked_eq_record`.
-/
import Bearer.Proofs.Fleet.Start
import Bearer.Proofs.Fleet.Upkeep
import Bearer.Proofs.Session.Sourced
import Bearer.Proofs.Store.Revocation

namespace Bearer

/-- What an issuer remembers after it has been told of a revocation is that, or what it remembered
before. -/
theorem RevokedTokens.get?_remember {r : RevokedTokens} {now expiresAt t : Instant}
    {tokenId other : String}
    (h : (r.remember now tokenId expiresAt).entries.get? other = some t) :
    other = tokenId ∧ t = expiresAt ∨ r.entries.get? other = some t := by
  rw [remember, Table.get?_insert] at h
  split at h
  · next heq => exact Or.inl ⟨heq, (Option.some.inj h).symm⟩
  · unfold prune at h
    split at h
    · rw [Table.get?_filter, Option.filter_eq_some_iff] at h
      exact Or.inr h.1
    · exact Or.inr h

namespace Fleet

variable {n : Nat} {f : MemoryFleet n} {i j : Fin n} {tokenId : String} {expiresAt : Instant}
variable {may : Incident n → Prop} {owed : String → Instant → Prop}

/-- Whether a revocation is on record for as long as it matters. -/
def Backed (f : MemoryFleet n) (tokenId : String) (expiresAt : Instant) : Prop :=
  f.wall < expiresAt → f.origin.revocations.RevokedUntil tokenId expiresAt

/-- Whether what is cached and remembered as revoked is on record; what is owed is remembered, but
not yet on record. -/
structure Agreed (owed : String → Instant → Prop) (f : MemoryFleet n) : Prop where
  reports : ∀ j : Fin n, (f.issuer j).reports = true
  keyed : f.origin.revocations.Keyed
  cached : ∀ (j : Fin n) tokenId,
    f.Holds (.under (Key.blacklist tokenId) .revocation fun r _ => f.Backed tokenId r.expiresAt) j
  remembered : ∀ (j : Fin n) tokenId expiresAt,
    (f.revoked j).entries.get? tokenId = some expiresAt →
      f.Backed tokenId expiresAt ∨ owed tokenId expiresAt

theorem Fresh.agreed (h : f.Fresh) (hreports : ∀ j : Fin n, (f.issuer j).reports = true) :
    f.Agreed owed where
  reports := hreports
  keyed := h.keyed
  cached j tokenId := h.holds _ j
  remembered j tokenId expiresAt hentry := by
    rw [h.revoked] at hentry
    cases hentry

/-! ## Incidents and requests -/

theorem Backed.befall (h : f.Backed tokenId expiresAt) (e : Incident n) :
    (f.befall e).Backed tokenId expiresAt := by
  intro hlive
  rw [befall_origin]
  exact h (Instant.lt_of_le_of_lt (befall_wall f e) hlive)

theorem stable_backed (tokenId : String) (expiresAt : Instant) :
    Stable may fun f => f.Backed tokenId expiresAt :=
  fun _ e _ h => h.befall e

theorem stable_agreed : Stable may (Agreed (n := n) owed) := by
  intro f e _ h
  refine ⟨fun j => ?_, ?_, fun j tokenId => ?_, fun j tokenId expiresAt hentry => ?_⟩
  · rw [befall_issuer]
    exact h.reports j
  · rw [befall_origin]
    exact h.keyed
  · exact ((h.cached j tokenId).imp fun _ _ hb => hb.befall e).befall e
  · rw [befall_revoked] at hentry
    exact (h.remembered j tokenId expiresAt hentry).imp_left fun hb => hb.befall e

/-- Whether a request caches and remembers only what is on record or owed, and purges only what has
expired. -/
def Fair (owed : String → Instant → Prop) (f : MemoryFleet n) (i : Fin n) : Request → Prop
  | .cache c => ∀ tokenId, TieredCache.Keeps (.under (Key.blacklist tokenId) .revocation
      fun r _ => f.Backed tokenId r.expiresAt) f.clock (f.cache i).config c
  | .revocation (.deleteExpired time) => time ≤ f.wall
  | .remember tokenId expiresAt => f.Backed tokenId expiresAt ∨ owed tokenId expiresAt
  | _ => True

theorem Backed.answer (h : f.Backed tokenId expiresAt) {r : Request} (hr : Fair owed f i r) :
    (answer i r f).2.Backed tokenId expiresAt := by
  intro hlive
  rw [answer_wall] at hlive
  rw [answer_revocations]
  cases r with
  | revocation c =>
    refine RevocationStore.revokedUntil_perform (h hlive) fun time hc => ?_
    subst hc
    exact Instant.lt_of_le_of_lt hr hlive
  | _ => exact h hlive

theorem Agreed.answer (h : f.Agreed owed) {r : Request} (hr : Fair owed f i r) :
    (answer i r f).2.Agreed owed := by
  refine ⟨fun j => ?_, ?_, fun j tokenId => ?_, fun j tokenId expiresAt hentry => ?_⟩
  · rw [answer_issuer]
    exact h.reports j
  · exact keyed_answer h.keyed i r
  · -- The request keeps the rule that the fleet had before it, and whatever was backed still is.
    have hkept : (Fleet.answer i r f).2.Holds (.under (Key.blacklist tokenId) .revocation
        fun r _ => f.Backed tokenId r.expiresAt) j := by
      refine (h.cached j tokenId).answer (EntryRule.shortens_under fun _ _ _ hb _ => hb) ?_
      rintro c rfl
      exact hr tokenId
    exact hkept.imp fun _ _ hb => hb.answer hr
  · have hold : (f.revoked j).entries.get? tokenId = some expiresAt ∨
        f.Backed tokenId expiresAt ∨ owed tokenId expiresAt := by
      rw [answer_revoked] at hentry
      cases r with
      | remember other later =>
        dsimp only at hentry
        split at hentry
        · next heq =>
          rcases RevokedTokens.get?_remember hentry with ⟨rfl, rfl⟩ | hbefore
          · exact Or.inr hr
          · exact Or.inl (heq ▸ hbefore)
        · exact Or.inl hentry
      | _ => exact Or.inl hentry
    exact (hold.elim (h.remembered j tokenId expiresAt) id).imp_left fun hb => hb.answer hr

/-- The requests of the session service are fair. -/
theorem fair_of_sessions {r : Request} (hr : r.OfSessions) : Fair owed f i r := by
  cases r with
  | cache c =>
    intro tokenId
    cases c with
    | store kind key value ttl =>
      cases kind with
      | session =>
        obtain rfl := hr
        exact keeps_under_of_ne (Key.session_ne_blacklist _ _) .session value ttl
      | _ => exact absurd hr id
    | fetch kind key => trivial
    | delete key => trivial
    | _ => exact absurd hr id
  | revocation c => exact absurd hr id
  | remember tokenId expiresAt => exact absurd hr id
  | _ => trivial

/-- What is owed and has been put on record is owed no longer. -/
theorem Agreed.settle {owed' : String → Instant → Prop} (h : f.Agreed owed)
    (howed : ∀ tokenId expiresAt, owed tokenId expiresAt →
      f.Backed tokenId expiresAt ∨ owed' tokenId expiresAt) : f.Agreed owed' where
  reports := h.reports
  keyed := h.keyed
  cached := h.cached
  remembered j tokenId expiresAt hentry :=
    (h.remembered j tokenId expiresAt hentry).elim Or.inl (howed tokenId expiresAt)

/-! ## The revocation service -/

/-- What is on record may be cached. -/
theorem upholds_keep (r : Revocation) :
    Upholds may i (fun f => f.Agreed owed ∧ f.Backed r.tokenId r.expiresAt) (Blacklist.keep r) := by
  have hstable : Stable may fun f : MemoryFleet n =>
      f.Agreed owed ∧ f.Backed r.tokenId r.expiresAt :=
    stable_agreed.and (stable_backed r.tokenId r.expiresAt)
  refine Upholds.bind (ensures_now hstable fun _ hf => hf) fun time => ?_
  split
  · next ttl _ =>
    refine Upholds.bind (ensures_cache hstable _ fun f hf => ?_) fun _ => upholds_pure _
    have hfair : Fair owed f i
        (.cache (.store .revocation (Key.blacklist r.tokenId) r (some ttl))) := by
      intro tokenId
      refine keeps_under_store .revocation fun hkey => ?_
      rw [← Key.blacklist_injective hkey]
      exact hf.2
    exact ⟨hf.1.answer hfair, hf.2.answer hfair⟩
  · exact upholds_pure _

/-- Once the record has been told of a revocation, it is backed. -/
theorem ensures_add (tokenId : String) (expiresAt : Instant) :
    Ensures may i (Agreed (n := n) owed) (Blacklist.add tokenId expiresAt)
      fun _ f => f.Agreed owed ∧ f.Backed tokenId expiresAt := by
  have hstable : Stable may fun f : MemoryFleet n => f.Agreed owed ∧ f.Backed tokenId expiresAt :=
    stable_agreed.and (stable_backed tokenId expiresAt)
  have hinsert : Ensures may i (Agreed owed)
      (Service.revocation (.insert tokenId expiresAt))
      fun _ f => f.Agreed owed ∧ f.Backed tokenId expiresAt :=
    ensures_revocation stable_agreed _ fun f hf =>
      ⟨hf.answer trivial, fun _ => RevocationStore.revokedUntil_insert ..⟩
  refine hinsert.bind (fun _ => ?_) fun _ _ hf => hf
  exact Upholds.bind (ensures_now hstable fun _ hf => hf) fun createdAt =>
    upholds_keep { tokenId, expiresAt, createdAt }

theorem upholds_isRecorded (tokenId : String) (time : Instant) :
    Upholds may i (Agreed (n := n) owed) (Blacklist.isRecorded tokenId time) := by
  -- What the record answers is one of its rows, kept under its own id.
  have hfind : Ensures may i (Agreed (n := n) owed)
      (Service.revocation (.findActive tokenId time))
      fun result f => ∃ found, result = .ok found ∧ f.Agreed owed ∧
        ∀ r ∈ found, f.Backed r.tokenId r.expiresAt := by
    refine ensures_revocation stable_agreed _ fun f hf => ⟨_, rfl, hf.answer trivial, ?_⟩
    intro r hr _
    have hrow : f.origin.revocations.rows.get? tokenId = some r :=
      (Option.filter_eq_some_iff.1 hr).1
    exact ⟨r, (hf.keyed tokenId r hrow).symm ▸ hrow, Instant.le_refl _⟩
  refine hfind.bind_ok fun found => ?_
  cases found with
  | none => exact ensures_pure _ fun _ hf => hf.1
  | some r =>
    refine Ensures.bind ((upholds_keep r).of_imp fun f hf => ⟨hf.1, hf.2 r rfl⟩)
      (fun _ => ensures_pure _ fun _ hf => hf.1) fun _ _ hf => hf.1

theorem upholds_contains (tokenId : String) :
    Upholds may i (Agreed (n := n) owed) (Blacklist.contains tokenId) := by
  refine Upholds.bind (ensures_now stable_agreed fun _ hf => hf) fun time => ?_
  refine Upholds.bind (ensures_cache stable_agreed _ fun f hf => hf.answer fun _ => trivial)
    fun cached => ?_
  split
  · split
    · exact upholds_pure _
    · exact upholds_isRecorded tokenId time
  · exact upholds_isRecorded tokenId time

theorem upholds_loadCutoff (user : UserId) :
    Upholds may i (Agreed (n := n) owed) (Blacklist.loadCutoff user) := by
  refine Upholds.bind (ensures_now stable_agreed fun _ hf => hf) fun time => ?_
  refine Upholds.bind (ensures_revocation stable_agreed _ fun f hf => hf.answer trivial)
    fun found => ?_
  split
  · refine Upholds.bind (ensures_cache stable_agreed _ fun f hf => hf.answer fun tokenId => ?_)
      fun _ => upholds_pure _
    exact keeps_under_of_ne (Key.blacklist_ne_cutoff _ _).symm .cutoff _ _
  · exact upholds_pure _

theorem upholds_purge : Upholds may i (Agreed (n := n) owed) Blacklist.purge := by
  refine upholds_now_bind stable_agreed fun time => ?_
  exact ensures_revocation (stable_agreed.and (stable_shown time)) _ fun f hf =>
    hf.1.answer hf.2

theorem upholds_revocationTask (t : RevocationTask) :
    Upholds may i (Agreed (n := n) owed) t.service := by
  cases t with
  | add tokenId expiresAt =>
    exact (ensures_add tokenId expiresAt).imp fun _ _ hf => hf.1
  | contains tokenId => exact upholds_contains tokenId
  | revokeUser user revokedBefore expiresAt =>
    refine Upholds.bind (ensures_revocation stable_agreed _ fun f hf => hf.answer trivial)
      fun _ => ?_
    exact (upholds_loadCutoff user).bind fun _ => upholds_pure _
  | isUserRevoked user issuedAt =>
    refine Upholds.bind (ensures_cache stable_agreed _ fun f hf => hf.answer fun _ => trivial)
      fun cached => ?_
    dsimp only
    split
    · exact (upholds_pure _).bind fun _ => upholds_pure _
    · exact (upholds_loadCutoff user).bind fun _ => upholds_pure _
  | purge => exact upholds_purge

/-- An issuer that reports revocations owes the record nothing once it has revoked a token. -/
theorem upholds_revoke {issuer : Issuer} (hreports : issuer.reports = true) (kind : TokenKind)
    (token : String) :
    Upholds may i (Agreed (n := n) fun _ _ => False) (issuer.revoke kind token) := by
  refine (upholds_lift _).bind fun claims => ?_
  dsimp only
  split
  · exact ensures_throw_bind _ fun _ hf => hf
  refine Upholds.bind (ensures_now stable_agreed fun _ hf => hf) fun time => ?_
  split
  · exact upholds_pure _
  -- Between the memory and the record, the issuer owes this one revocation.
  refine ensures_ask_bind stable_agreed (.remember claims.tokenId claims.expiresAt)
    (fun _ => Agreed fun tokenId expiresAt =>
      tokenId = claims.tokenId ∧ expiresAt = claims.expiresAt)
    (fun f hf => (hf.settle fun _ _ => False.elim).answer (Or.inr ⟨rfl, rfl⟩)) fun _ => ?_
  refine (ensures_add claims.tokenId claims.expiresAt).imp fun _ f hf => ?_
  refine hf.1.settle fun tokenId expiresAt howed => Or.inl ?_
  rw [howed.1, howed.2]
  exact hf.2

/-- Every task of an instance whose issuer reports revocations leaves caches and memories in
agreement with the record. -/
theorem Agreed.upkeep (h : f.Agreed fun _ _ => False) (may : Incident n → Prop) (i : Fin n) :
    Upkeep may i (f.issuer i) (Agreed fun _ _ => False) where
  stable := stable_agreed
  freshTokenId _ hf := hf.answer (r := .freshTokenId) trivial
  user c _ hf := hf.answer (r := .user c) trivial
  invalidate pattern _ hf := hf.answer (r := .cache (.invalidate pattern)) fun _ => trivial
  session t := Upholds.of_confined stable_agreed t.confined fun _ hr _ hf =>
    hf.answer (fair_of_sessions hr)
  revocation := upholds_revocationTask
  revoke := upholds_revoke (h.reports i)

end Fleet

/-! ## The answer -/

namespace Fleet

variable {n : Nat} {f g : MemoryFleet n} {i : Fin n} {tokenId : String}

/-- Whether the record has a row of a token that has not expired. -/
def onRecord (f : MemoryFleet n) (tokenId : String) : Bool :=
  (f.origin.revocations.rows.get? tokenId).any fun row => row.active f.wall

/-- Whether a fleet is in agreement, and the time and the rows are still those of another one. -/
structure Resting (f g : MemoryFleet n) : Prop where
  agreed : g.Agreed fun _ _ => False
  wall : g.wall = f.wall
  rows : g.origin.revocations.rows = f.origin.revocations.rows

theorem stable_resting (f : MemoryFleet n) : Stable Incident.Timeless f.Resting := by
  intro g e he h
  have hagreed : Stable Incident.Timeless (Agreed (n := n) fun _ _ => False) := stable_agreed
  refine ⟨hagreed g e he h.agreed, ?_, ?_⟩
  · rw [befall_timeless _ he]
    exact h.wall
  · rw [befall_origin]
    exact h.rows

/-- Where the fleet is in agreement, what is backed and has not expired is on record. -/
theorem Resting.onRecord (h : f.Resting g) {expiresAt : Instant}
    (hbacked : g.Backed tokenId expiresAt) (hlive : f.wall < expiresAt) :
    f.onRecord tokenId = true := by
  rw [← h.wall] at hlive
  have hany := RevocationStore.any_active (hbacked hlive) hlive
  rw [h.rows, h.wall] at hany
  exact hany

theorem ensures_keep (r : Revocation) :
    Ensures Incident.Timeless i f.Resting (Blacklist.keep r) fun result _ => result = .ok () := by
  have htrue : Stable Incident.Timeless fun _ : MemoryFleet n => True := fun _ _ _ _ => trivial
  refine ensures_ask_bind (stable_resting f) .now (fun _ _ => True) (fun _ _ => trivial)
    fun time => ?_
  split
  · exact ensures_ask_bind htrue (.cache _) (fun _ _ => True) (fun _ _ => trivial) fun _ =>
      ensures_pure _ fun _ _ => rfl
  · exact ensures_pure _ fun _ _ => rfl

theorem ensures_isRecorded (f : MemoryFleet n) (i : Fin n) (tokenId : String) :
    Ensures Incident.Timeless i f.Resting (Blacklist.isRecorded tokenId f.wall)
      fun result _ => result = .ok (f.onRecord tokenId) := by
  have hfind : Ensures Incident.Timeless i f.Resting
      (Service.revocation (.findActive tokenId f.wall))
      fun result g => ∃ found, result = .ok found ∧
        found = f.origin.revocations.findActive tokenId f.wall ∧ f.Resting g := by
    refine ensures_revocation (stable_resting f) _ fun g hg => ⟨_, rfl, ?_, ?_⟩
    · simp only [RevocationStore.findActive, hg.rows]
    · exact ⟨hg.agreed.answer trivial, hg.wall, hg.rows⟩
  refine hfind.bind_ok fun found => ensures_of_and fun hfound => ?_
  have hrecord : f.onRecord tokenId = found.isSome := by
    rw [onRecord, ← Option.isSome_filter, hfound]
    rfl
  rw [hrecord]
  cases found with
  | none => exact ensures_pure _ fun _ _ => rfl
  | some r =>
    refine (ensures_keep r).bind (fun _ => ensures_pure _ fun _ _ => rfl) fun _ _ hf => ?_
    cases hf

/-- A cached revocation that has not expired is on record, and otherwise the record is asked. -/
theorem ensures_contains (f : MemoryFleet n) (i : Fin n) (tokenId : String) :
    Ensures Incident.Timeless i f.Resting (Blacklist.contains tokenId)
      fun result _ => result = .ok (f.onRecord tokenId) := by
  refine ensures_ask_bind (stable_resting f) .now (fun time g => time = f.wall ∧ f.Resting g)
    (fun g hg => ⟨hg.wall, hg⟩) fun time => ensures_of_and fun htime => ?_
  subst htime
  refine ensures_ask_bind (stable_resting f) (.cache (.fetch .revocation (Key.blacklist tokenId)))
    (fun found g => (∀ r : Revocation, found = some r → r.active f.wall = true →
      f.onRecord tokenId = true) ∧ f.Resting g) (fun g hg => ⟨fun r hfound hactive => ?_, ?_⟩)
    fun found => ensures_of_and fun hfound => ?_
  · obtain ⟨-, hbacked, -⟩ := (hg.agreed.cached i tokenId).of_fetch hfound
    exact hg.onRecord hbacked (of_decide_eq_true hactive)
  · exact ⟨hg.agreed.answer fun _ => trivial, (answer_wall ..).trans hg.wall, hg.rows⟩
  · cases found with
    | none => exact ensures_isRecorded f i tokenId
    | some r =>
      dsimp only
      split
      · next hactive =>
        rw [hfound r rfl hactive]
        exact ensures_pure _ fun _ _ => rfl
      · exact ensures_isRecorded f i tokenId

theorem ensures_isRevoked (f : MemoryFleet n) (i : Fin n) (tokenId : String) :
    Ensures Incident.Timeless i f.Resting (Auth.isRevoked tokenId)
      fun result _ => result = .ok (f.onRecord tokenId) := by
  refine ensures_ask_bind (stable_resting f) (.isRemembered tokenId)
    (fun known g => (known = true → f.onRecord tokenId = true) ∧ f.Resting g)
    (fun g hg => ⟨fun hknown => ?_, hg⟩) fun known => ensures_of_and fun hknown => ?_
  · -- What is remembered and has not expired is backed.
    have hany : ((g.revoked i).entries.get? tokenId).any (fun t => decide (g.wall < t)) = true :=
      hknown
    rw [Option.any_eq_true] at hany
    obtain ⟨t, hentry, hlive⟩ := hany
    rw [hg.wall] at hlive
    exact hg.onRecord ((hg.agreed.remembered i tokenId t hentry).resolve_right id)
      (of_decide_eq_true hlive)
  · split
    · next h =>
      rw [hknown h]
      exact ensures_pure _ fun _ _ => rfl
    · exact ensures_contains f i tokenId

/-- After any run, whatever has been remembered and cached, and whether or not the shared cache
answers: a token is said to be revoked exactly if the record has a row of it that has not
expired. -/
theorem isRevoked_eq_record (hfresh : f.Fresh)
    (hreports : ∀ j : Fin n, (f.issuer j).reports = true) (acts : List (Act n)) (i : Fin n)
    (tokenId : String) {amid : Schedule n}
    (hamid : ∀ incidents ∈ amid, ∀ e ∈ incidents, e.Timeless) :
    let g := f.enact acts
    ∃ revoked, (g.carry i (.operation (.isRevoked tokenId)) amid).1 = .ok revoked ∧
      (revoked = true ↔ ∃ row, g.origin.revocations.rows.get? tokenId = some row ∧
        g.wall < row.expiresAt) := by
  intro g
  have hagreed : g.Agreed fun _ _ => False :=
    Upkeep.enact (fun f i hf => hf.upkeep (fun _ => True) i) stable_agreed
      (hfresh.agreed hreports) fun a _ => by cases a <;> simp [Act.Only]
  refine ⟨g.onRecord tokenId, ?_, ?_⟩
  · exact (ensures_isRevoked g i tokenId).result ⟨hagreed, rfl, rfl⟩ hamid
  · rw [onRecord, Option.any_eq_true]
    simp only [Revocation.active, decide_eq_true_eq]

open Demo

/-- A revocation is put on record at a demo instance, and the shared cache goes offline. -/
def demoRevocation (i : Fin 2) : List (Act 2) :=
  [.carry i (.revocation (.add "demo" demoMinute)) [],
    .befall (.event (.outage true false)),
    .befall (.event (.pass (.ofSeconds 10) (.ofSeconds 10)))]

/-- The other demo instance says so while the first one is swept. -/
theorem isRevoked_eq_record_demo :
    ((demo.enact (demoRevocation 0)).carry 1 (.operation (.isRevoked "demo"))
      [[.event (.sweep 0)]]).1 = .ok true := by
  have hreports : ∀ j : Fin 2, (demo.issuer j).reports = true := by decide
  have hamid : ∀ incidents ∈ ([[.event (.sweep 0)]] : Schedule 2), ∀ e ∈ incidents,
      e.Timeless := by
    simp [Incident.Timeless]
  obtain ⟨revoked, hanswer, hrevoked⟩ :=
    isRevoked_eq_record (fresh_start ..) hreports (demoRevocation 0) 1 "demo" hamid
  have hrow : (demo.enact (demoRevocation 0)).origin.revocations.rows.get? "demo" =
      some ⟨"demo", demoMinute, .epoch⟩ := by decide
  have hlive : (demo.enact (demoRevocation 0)).wall < demoMinute := by decide
  rw [hrevoked.2 ⟨_, hrow, hlive⟩] at hanswer
  exact hanswer

end Fleet

end Bearer
