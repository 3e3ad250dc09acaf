/-
  What an operation for one user leaves alone.

  Whatever an operation acts for one user asks, it asks about that user: stores
  and caches are reached by the user's number, and a token is put on the
  blacklist only if the user's name is on it.  A session is cached under the
  user that it names, which is the user that it was asked for, because rows are
  kept under the users they name.  So everything on record about anybody else,
  and everything live in the shared cache under anybody else's keys, is as it was
  when the operation ends, however it ends and whatever happens to the caches
  meanwhile.

  Main statements: `Safe.answer`, `spares_operation` and `execute_apart`.
-/
import Bearer.Proofs.Fleet.Amid
import Bearer.Proofs.Fleet.Start
import Bearer.Proofs.Store.Revocation
import Bearer.Proofs.Store.Session
import Bearer.Proofs.Store.User

namespace Bearer

/-- The keys that belong to a user. -/
def Key.ofUser (user : UserId) : List String := [Key.session user, Key.cutoff user, Key.user user]

namespace Key

variable {user other : UserId}

theorem mem_ofUser_iff {key : String} :
    key ∈ ofUser user ↔ key = session user ∨ key = cutoff user ∨ key = Key.user user := by
  simp only [ofUser, List.mem_cons, List.not_mem_nil, or_false]

theorem session_not_mem_ofUser (h : other ≠ user) : session user ∉ ofUser other := by
  rw [mem_ofUser_iff]
  rintro (heq | heq | heq)
  · exact h (session_injective heq).symm
  · exact session_ne_cutoff _ _ heq
  · exact user_ne_session _ _ heq.symm

theorem cutoff_not_mem_ofUser (h : other ≠ user) : cutoff user ∉ ofUser other := by
  rw [mem_ofUser_iff]
  rintro (heq | heq | heq)
  · exact session_ne_cutoff _ _ heq.symm
  · exact h (cutoff_injective heq).symm
  · exact user_ne_cutoff _ _ heq.symm

theorem blacklist_not_mem_ofUser (tokenId : String) (other : UserId) :
    blacklist tokenId ∉ ofUser other := by
  rw [mem_ofUser_iff]
  rintro (heq | heq | heq)
  · exact session_ne_blacklist _ _ heq.symm
  · exact blacklist_ne_cutoff _ _ heq
  · exact user_ne_blacklist _ _ heq.symm

/-- The pattern of a user's keys matches no other user's. -/
theorem not_isMatch_of_mem_ofUser (h : other ≠ user) {key : String} (hkey : key ∈ ofUser other) :
    ¬ Text.Glob.isMatch (userPattern user) key = true := by
  rcases mem_ofUser_iff.1 hkey with rfl | rfl | rfl
  · exact not_isMatch_userPattern_session user other
  · exact not_isMatch_userPattern_cutoff h.symm
  · exact not_isMatch_userPattern_user user other

end Key

/-- Whether an operation acts for a user: a login does if the user's is the name, and what is given
a token does if the user's is the token. -/
def Operation.ActsFor (users : UserStore) (issuer : Issuer) (user : UserId) : Operation → Prop
  | login username _ => ∀ account, users.accounts.get? username = some account →
      account.user.id = user
  | refresh token | verify token | revoke token => ∀ claims,
      issuer.config.peek token = .ok claims → claims.user = user
  | logout owner _ _ | revokeAll owner | session owner | holdsToken owner _ => owner = user
  | isRevoked _ => True
  | tidy => False

/-- Whether an operation takes a token of a user out of use that has an id. -/
def Operation.Owns (issuer : Issuer) (user : UserId) (o : Operation) (tokenId : String) : Prop :=
  ∃ token ∈ o.retired, ∃ claims, issuer.config.peek token = .ok claims ∧ claims.user = user ∧
    claims.tokenId = tokenId

/-- Whether a request is about one user, and about revocations of the user's own tokens. -/
def Request.Within (user : UserId) (owned : String → Prop) : Request → Prop
  | .session (.deleteExpired _) | .revocation (.deleteExpired _) | .user (.create ..) => False
  | .session c => ∀ owner, c.subject? = some owner → owner = user
  | .revocation (.insert tokenId _) => owned tokenId
  | .revocation (.insertCutoff owner ..) => owner = user
  | .user (.update written) => written.id = user
  | .cache c => ∀ other, other ≠ user → ∀ key ∈ Key.ofUser other, ¬ c.Reaches key
  | _ => True

namespace Fleet

variable {n : Nat} {f g : MemoryFleet n} {user : UserId} {owned : String → Prop}

/-- Whether two fleets agree on everything that is about others than a user: their accounts, their
sessions and cutoffs on record, the revocations of tokens but the user's own, and what is live in the
shared cache under their keys. -/
structure Apart (user : UserId) (owned : String → Prop) (f g : MemoryFleet n) : Prop where
  accounts : ∀ name account, account.user.id ≠ user →
    (g.origin.users.accounts.get? name = some account ↔
      f.origin.users.accounts.get? name = some account)
  sessions : ∀ other, other ≠ user →
    g.origin.sessions.rows.get? other = f.origin.sessions.rows.get? other
  cutoffs : ∀ other, other ≠ user →
    g.origin.revocations.cutoffs.get? other = f.origin.revocations.cutoffs.get? other
  revocations : ∀ tokenId, ¬ owned tokenId →
    g.origin.revocations.rows.get? tokenId = f.origin.revocations.rows.get? tokenId
  cached : ∀ other, other ≠ user → ∀ key ∈ Key.ofUser other,
    g.shared.lookup g.clock key = f.shared.lookup f.clock key

theorem Apart.refl (user : UserId) (owned : String → Prop) (f : MemoryFleet n) :
    f.Apart user owned f :=
  ⟨fun _ _ _ => Iff.rfl, fun _ _ => rfl, fun _ _ => rfl, fun _ _ => rfl, fun _ _ _ _ => rfl⟩

/-- Whether a fleet agrees with an earlier one on all others, and rows name their users. -/
structure Safe (user : UserId) (owned : String → Prop) (f g : MemoryFleet n) : Prop where
  apart : f.Apart user owned g
  coherent : g.origin.sessions.Coherent

/-! ## One request -/

/-- A request about a user leaves all others as they are. -/
theorem Apart.answer (h : f.Apart user owned g) (i : Fin n) {r : Request}
    (hr : r.Within user owned) : f.Apart user owned (answer i r g).2 where
  accounts name account hid := by
    rw [← h.accounts name account hid, answer_users]
    cases r with
    | user c =>
      cases c with
      | verify username password => rfl
      | update written =>
        obtain rfl : written.id = user := hr
        exact UserStore.get?_update_iff hid
      | create username password => exact absurd hr id
    | _ => rfl
  sessions other hother := by
    rw [← h.sessions other hother, answer_sessions]
    cases r with
    | session c =>
      refine SessionStore.get?_perform_of_ne (fun hsubject => ?_) fun now heq => ?_
      · cases c with
        | deleteExpired now => exact hr
        | _ => exact hother (hr other hsubject)
      · subst heq
        exact hr
    | _ => rfl
  cutoffs other hother := by
    rw [← h.cutoffs other hother, answer_revocations]
    cases r with
    | revocation c =>
      cases c with
      | insertCutoff owner revokedBefore expiresAt =>
        obtain rfl : owner = user := hr
        dsimp only [RevocationStore.perform]
        rw [RevocationStore.get?_insertCutoff, if_neg hother]
      | deleteExpired now => exact absurd hr id
      | _ => rfl
    | _ => rfl
  revocations tokenId hnot := by
    rw [← h.revocations tokenId hnot, answer_revocations]
    cases r with
    | revocation c =>
      cases c with
      | insert revoked expiresAt =>
        have hne : tokenId ≠ revoked := fun heq => hnot (heq ▸ hr)
        dsimp only [RevocationStore.perform, RevocationStore.insert]
        rw [Table.get?_insert, if_neg hne]
      | deleteExpired now => exact absurd hr id
      | _ => rfl
    | _ => rfl
  cached other hother key hkey := by
    rw [← h.cached other hother key hkey, answer_clock, answer_shared]
    cases r with
    | cache c => exact TieredCache.lookup_perform _ (hr other hother key hkey) ..
    | _ => rfl

theorem Safe.answer (h : Safe user owned f g) (i : Fin n) {r : Request}
    (hr : r.Within user owned) : Safe user owned f (answer i r g).2 where
  apart := h.apart.answer i hr
  coherent := coherent_answer h.coherent i r

/-- Incidents that let no time pass change nothing on record and nothing live in the shared
cache. -/
theorem stable_safe : Stable Incident.Timeless (Safe user owned f) := by
  intro g e he h
  have hlive : ∀ key, (g.befall e).shared.lookup (g.befall e).clock key =
      g.shared.lookup g.clock key := by
    intro key
    cases e with
    | event e =>
      cases e with
      | pass byWall byClock => exact absurd he id
      | _ => rfl
    | evict i key => rfl
  have horigin := befall_origin g e
  obtain ⟨⟨haccounts, hsessions, hcutoffs, hrevocations, hcached⟩, hcoherent⟩ := h
  rw [← horigin] at haccounts hsessions hcutoffs hrevocations hcoherent
  refine ⟨⟨haccounts, hsessions, hcutoffs, hrevocations, fun other hother key hkey => ?_⟩,
    hcoherent⟩
  rw [hlive]
  exact hcached other hother key hkey

/-! ## Services -/

/-- Whether a service leaves all but a user as they are, whatever happens to the caches
meanwhile. -/
abbrev Spares {α : Type} (user : UserId) (owned : String → Prop) (f : MemoryFleet n) (i : Fin n)
    (s : Service α) : Prop :=
  Upholds Incident.Timeless i (Safe user owned f) s

variable {i : Fin n} {issuer : Issuer}

theorem spares_ask {r : Request} (hr : r.Within user owned) :
    Spares user owned f i (Service.ask r) :=
  ensures_ask stable_safe r fun _ hg => hg.answer i hr

theorem spares_now : Spares user owned f i Service.now := spares_ask trivial

theorem spares_cache {c : CacheCall} (hc : (Request.cache c).Within user owned) :
    Spares user owned f i (Service.cache c) :=
  ensures_cache stable_safe c fun _ hg => hg.answer i hc

theorem spares_revocation {c : RevocationCall} (hc : (Request.revocation c).Within user owned) :
    Spares user owned f i (Service.revocation c) :=
  ensures_revocation stable_safe c fun _ hg => hg.answer i hc

theorem spares_session {c : SessionCall} (hc : (Request.session c).Within user owned) :
    Spares user owned f i (Service.session c) :=
  ensures_session stable_safe c fun _ hg => hg.answer i hc

/-! ### Keys -/

/-- A call that reaches one key only may be made, if that is no key of another user. -/
theorem within_key {c : CacheCall} {own : String}
    (hown : ∀ other, other ≠ user → own ∉ Key.ofUser other)
    (hc : ∀ key, c.Reaches key → key = own) : (Request.cache c).Within user owned := by
  intro other hother key hkey hreach
  rw [hc key hreach] at hkey
  exact hown other hother hkey

theorem within_session {c : CacheCall} (hc : ∀ key, c.Reaches key → key = Key.session user) :
    (Request.cache c).Within user owned :=
  within_key (fun _ hother => Key.session_not_mem_ofUser hother) hc

theorem within_cutoff {c : CacheCall} (hc : ∀ key, c.Reaches key → key = Key.cutoff user) :
    (Request.cache c).Within user owned :=
  within_key (fun _ hother => Key.cutoff_not_mem_ofUser hother) hc

theorem within_blacklist {c : CacheCall} (tokenId : String)
    (hc : ∀ key, c.Reaches key → key = Key.blacklist tokenId) :
    (Request.cache c).Within user owned :=
  within_key (fun other _ => Key.blacklist_not_mem_ofUser tokenId other) hc

theorem within_invalidate :
    (Request.cache (.invalidate (Key.userPattern user))).Within user owned :=
  fun _ hother _ hkey hmatch => Key.not_isMatch_of_mem_ofUser hother hkey hmatch

/-! ### Revocations -/

theorem spares_keepRevocation (r : Revocation) : Spares user owned f i (Blacklist.keep r) := by
  refine spares_now.bind fun time => ?_
  split
  · refine Upholds.bind (spares_cache (within_blacklist r.tokenId ?_)) fun _ => upholds_pure _
    exact fun _ hreach => hreach
  · exact upholds_pure _

theorem spares_add {tokenId : String} (howned : owned tokenId) (expiresAt : Instant) :
    Spares user owned f i (Blacklist.add tokenId expiresAt) := by
  refine Upholds.bind (spares_revocation howned) fun _ => ?_
  exact spares_now.bind fun time => spares_keepRevocation _

theorem spares_isRecorded (tokenId : String) (time : Instant) :
    Spares user owned f i (Blacklist.isRecorded tokenId time) := by
  refine Upholds.bind (spares_revocation trivial) fun found => ?_
  split
  · exact (spares_keepRevocation _).bind fun _ => upholds_pure _
  · exact upholds_pure _

theorem spares_contains (tokenId : String) :
    Spares user owned f i (Blacklist.contains tokenId) := by
  refine spares_now.bind fun time => ?_
  refine Upholds.bind (spares_cache (within_blacklist tokenId fun _ hreach => hreach)) fun cached => ?_
  split
  · split
    · exact upholds_pure _
    · exact spares_isRecorded tokenId time
  · exact spares_isRecorded tokenId time

theorem spares_loadCutoff : Spares user owned f i (Blacklist.loadCutoff user) := by
  refine spares_now.bind fun time => Upholds.bind (spares_revocation trivial) fun found => ?_
  split
  · refine Upholds.bind (spares_cache (within_cutoff ?_)) fun _ => upholds_pure _
    exact fun _ hreach => hreach
  · exact upholds_pure _

theorem spares_revokeUser (revokedBefore expiresAt : Instant) :
    Spares user owned f i (Blacklist.revokeUser user revokedBefore expiresAt) :=
  Upholds.bind (spares_revocation rfl) fun _ => spares_loadCutoff.bind fun _ => upholds_pure _

theorem spares_isUserRevoked (issuedAt : Instant) :
    Spares user owned f i (Blacklist.isUserRevoked user issuedAt) := by
  refine Upholds.bind (spares_cache (within_cutoff fun _ hreach => hreach)) fun cached => ?_
  dsimp only
  split
  · exact Upholds.bind (upholds_pure _) fun _ => upholds_pure _
  · exact spares_loadCutoff.bind fun _ => upholds_pure _

/-! ### Sessions -/

theorem spares_invalidate : Spares user owned f i (Sessions.invalidate user) :=
  Upholds.bind (spares_cache (within_session fun _ hreach => hreach)) fun _ => upholds_pure _

/-- A session that names the user may be cached. -/
theorem spares_keepSession {s : Session} (hs : s.user = user) :
    Spares user owned f i (Sessions.keep s) := by
  subst hs
  refine spares_now.bind fun time => ?_
  split
  · refine Upholds.bind (spares_cache (within_session ?_)) fun _ => upholds_pure _
    exact fun _ hreach => hreach
  · exact spares_invalidate

theorem spares_create (token : String) (expiresAt : Instant) :
    Spares user owned f i (Sessions.create user token expiresAt) := by
  refine spares_now.bind fun createdAt => ?_
  -- The row that has been written names the user.
  have hupsert : Ensures Incident.Timeless i (Safe user owned f)
      (Service.session (.upsert user token expiresAt createdAt)) fun result g =>
        (∀ s, result = .ok s → s.user = user) ∧ Safe user owned f g := by
    refine ensures_session stable_safe _ fun g hg => ?_
    have hsafe := hg.answer i (r := .session (.upsert user token expiresAt createdAt)) (by
      intro owner heq
      exact (Option.some.inj heq).symm)
    refine ⟨fun s hok => ?_, hsafe⟩
    rcases g.origin.sessions.upsert_cases user token expiresAt createdAt with
      ⟨row, hreply, hrow⟩ | ⟨⟨e, hreply⟩, -⟩
    · obtain rfl := Except.ok.inj (hreply.symm.trans hok)
      exact hsafe.coherent.keyed user row hrow
    · rw [hreply] at hok
      cases hok
  refine upholds_bind_of hupsert fun s hs => ?_
  exact (spares_keepSession hs).bind fun _ => upholds_pure _

theorem spares_load (ended : Bool) : Spares user owned f i (Sessions.load user ended) := by
  refine spares_now.bind fun time => ?_
  have hlookup : Ensures Incident.Timeless i (Safe user owned f)
      (Service.session (.findByUser user time)) fun result g =>
        (∀ found, result = .ok found → ∀ s ∈ found, s.user = user) ∧ Safe user owned f g := by
    refine ensures_session stable_safe _ fun g hg => ⟨fun found hok s hs => ?_, ?_⟩
    · obtain rfl := Except.ok.inj hok
      exact hg.coherent.keyed user s (SessionStore.findByUser_eq_some_iff.1 hs).1
    · exact hg.answer i (r := .session (.findByUser user time)) nofun
  refine upholds_bind_of hlookup fun found hfound => ?_
  split
  · exact (spares_keepSession (hfound _ rfl)).bind fun _ => upholds_pure _
  · exact upholds_lift (.error _)

theorem spares_get : Spares user owned f i (Sessions.get user) := by
  refine Upholds.bind (spares_cache (within_session fun _ hreach => hreach)) fun cached => ?_
  split
  · refine spares_now.bind fun time => ?_
    split
    · exact spares_invalidate.bind fun _ => spares_load true
    · exact upholds_pure _
  · exact spares_load false

theorem spares_getByToken (token : String) :
    Spares user owned f i (Sessions.getByToken token) := by
  refine spares_now.bind fun time => Upholds.bind (spares_session nofun) fun found => ?_
  split
  · exact upholds_pure _
  · exact upholds_lift (.error _)

theorem spares_rotate (old token : String) (ttl : Duration) :
    Spares user owned f i (Sessions.rotate user old token ttl) := by
  refine spares_now.bind fun time => (upholds_lift _).bind fun expiresAt => ?_
  refine Upholds.bind (spares_session ?_) fun written => ?_
  · intro owner heq
    exact (Option.some.inj heq).symm
  · split
    · exact spares_invalidate
    · exact upholds_lift (.error _)

theorem spares_delete : Spares user owned f i (Sessions.delete user) := by
  refine Upholds.bind (spares_session ?_) fun _ => spares_invalidate
  intro owner heq
  exact (Option.some.inj heq).symm

/-! ### Tokens -/

theorem spares_issue (kind : TokenKind) (holder : UserId) (username : String) (time : Instant) :
    Spares user owned f i (issuer.issue kind holder username time) :=
  (upholds_lift _).bind fun _ => Upholds.bind (spares_ask trivial) fun _ => upholds_pure _

theorem spares_issuePair (holder : UserId) (username : String) :
    Spares user owned f i (issuer.issuePair holder username) := by
  refine spares_now.bind fun time => (spares_issue .access holder username time).bind fun _ => ?_
  exact (spares_issue .refresh holder username time).bind fun _ => upholds_pure _

/-- What follows the reading of a token may rely on what can be read in it. -/
theorem spares_peek_bind {α : Type} {token : String} {next : Claims → Service α}
    (hnext : ∀ claims, issuer.config.peek token = .ok claims →
      Spares user owned f i (next claims)) :
    Spares user owned f i (liftM (issuer.config.peek token) >>= next) := by
  cases hpeek : issuer.config.peek token with
  | error e => exact upholds_lift (.error e)
  | ok claims => exact hnext claims hpeek

theorem spares_verify_bind {α : Type} {kind : TokenKind} {token : String}
    {next : Claims → Service α}
    (hnext : ∀ claims, issuer.config.peek token = .ok claims →
      Spares user owned f i (next claims)) :
    Spares user owned f i (issuer.verify kind token >>= next) := by
  have hverify : Ensures Incident.Timeless i (Safe user owned f) (issuer.verify kind token)
      fun result g => (∀ claims, result = .ok claims → issuer.config.peek token = .ok claims) ∧
        Safe user owned f g := by
    refine Ensures.bind spares_now (fun time => ensures_lift _ fun g hg => ⟨?_, hg⟩) ?_
    · intro claims hok
      exact (TokenConfig.verify_eq_ok_iff.1 hok).1
    · intro e g hg
      refine ⟨fun claims hok => ?_, hg⟩
      cases hok
  exact upholds_bind_of hverify hnext

theorem spares_revoke {token : String} {kind : TokenKind}
    (howned : ∀ claims, issuer.config.peek token = .ok claims → owned claims.tokenId) :
    Spares user owned f i (issuer.revoke kind token) := by
  refine spares_peek_bind fun claims hpeek => ?_
  dsimp only
  split
  · exact ensures_throw_bind _ fun _ hg => hg
  refine spares_now.bind fun time => ?_
  split
  · exact upholds_pure _
  refine Upholds.bind (spares_ask trivial) fun _ => ?_
  split
  · exact spares_add (howned claims hpeek) _
  · exact upholds_pure _

/-! ## Operations -/

theorem spares_isRevoked (tokenId : String) :
    Spares user owned f i (Auth.isRevoked tokenId) := by
  refine Upholds.bind (spares_ask trivial) fun remembered => ?_
  split
  · exact upholds_pure _
  · exact spares_contains tokenId

theorem spares_requireNotRevoked {claims : Claims} (hclaims : claims.user = user) :
    Spares user owned f i (Auth.requireNotRevoked claims) := by
  subst hclaims
  refine (spares_isRevoked claims.tokenId).bind fun revoked => ?_
  dsimp only
  split
  · exact ensures_throw_bind _ fun _ hg => hg
  refine (spares_isUserRevoked claims.issuedAt).bind fun cutOff => ?_
  split
  · exact upholds_lift (.error _)
  · exact upholds_pure _

/-- Of the texts that are handed in at a logout, only the user's own tokens are revoked. -/
theorem spares_revokeOwned {token : String}
    (howned : ∀ claims, issuer.config.peek token = .ok claims → claims.user = user →
      owned claims.tokenId) :
    Spares user owned f i (Auth.revokeOwned issuer user token) := by
  unfold Auth.revokeOwned
  split
  · exact upholds_pure _
  next claims hpeek =>
  split
  · exact upholds_pure _
  next hsame =>
  refine spares_now.bind fun time => ?_
  split
  · exact upholds_pure _
  · exact spares_add (howned claims hpeek (Decidable.not_not.1 hsame)) _

theorem spares_recordLogin {found : User} (hfound : found.id = user) :
    Spares user owned f i (Auth.recordLogin found) :=
  spares_now.bind fun _ => Upholds.bind (spares_ask hfound) fun _ => upholds_pure _

/-- Whoever logs in under a name is the user whose name it is. -/
theorem spares_login {username password : String}
    (hname : ∀ account, f.origin.users.accounts.get? username = some account →
      account.user.id = user) :
    Spares user owned f i (Auth.login issuer username password) := by
  have hverify : Ensures Incident.Timeless i (Safe user owned f)
      (Service.user (.verify username password)) fun result g =>
        (∀ found, result = .ok found → found.id = user) ∧ Safe user owned f g := by
    refine ensures_user stable_safe _ fun g hg => ⟨fun found hok => ?_, hg⟩
    obtain ⟨account, haccount, rfl⟩ := UserStore.stored_of_verify hok
    -- Somebody else's account would have been there under this name before.
    refine Decidable.byContradiction fun hother => ?_
    exact hother (hname account ((hg.apart.accounts username account hother).1 haccount))
  refine upholds_bind_of hverify fun found hid => ?_
  refine (spares_issuePair found.id found.username).bind fun tokens => ?_
  rw [hid]
  refine (spares_create tokens.refresh tokens.refreshExpiresAt).bind fun _ => ?_
  exact (spares_recordLogin hid).bind fun _ => upholds_pure _

theorem spares_refresh {token : String}
    (hown : ∀ claims, issuer.config.peek token = .ok claims →
      claims.user = user ∧ owned claims.tokenId) :
    Spares user owned f i (Auth.refresh issuer token) := by
  refine spares_verify_bind fun claims hpeek => ?_
  obtain ⟨hclaims, howned⟩ := hown claims hpeek
  refine (spares_requireNotRevoked hclaims).bind fun _ => ?_
  refine (spares_getByToken token).bind fun session => ?_
  dsimp only
  split
  · exact ensures_throw_bind _ fun _ hg => hg
  refine (spares_issuePair claims.user claims.username).bind fun tokens => ?_
  refine (spares_add howned claims.expiresAt).bind fun _ => spares_now.bind fun time => ?_
  split
  · rw [hclaims]
    exact (spares_rotate token tokens.refresh _).bind fun _ => upholds_pure _
  · exact upholds_lift (.error _)

theorem spares_revokeAll : Spares user owned f i (Auth.revokeAll issuer user) := by
  refine spares_now.bind fun cutoff => (upholds_lift _).bind fun lastExpiry => ?_
  refine (spares_revokeUser cutoff lastExpiry).bind fun _ => spares_delete.bind fun _ => ?_
  exact (spares_cache within_invalidate).bind fun _ => upholds_pure _

theorem spares_holdsToken (token : String) :
    Spares user owned f i (Auth.holdsToken user token) := by
  refine Upholds.bind (ensures_attempt spares_get) fun found => ?_
  split
  · split
    · exact upholds_pure _
    · refine Upholds.bind (ensures_attempt (spares_getByToken token)) fun byToken => ?_
      split
      · exact upholds_pure _
      · exact upholds_pure _
      · exact upholds_lift (.error _)
  · exact upholds_pure _
  · exact upholds_pure _
  · exact upholds_lift (.error _)

/-- An operation for a user leaves all others as they are. -/
theorem spares_operation {o : Operation} (hacts : o.ActsFor f.origin.users issuer user) :
    Spares user (o.Owns issuer user) f i (o.service issuer) := by
  cases o with
  | login username password => exact spares_login hacts
  | refresh token =>
    exact spares_refresh fun claims hpeek =>
      ⟨hacts claims hpeek, token, List.mem_cons_self, claims, hpeek, hacts claims hpeek, rfl⟩
  | logout owner accessToken refreshToken =>
    obtain rfl : owner = user := hacts
    refine (spares_revokeOwned fun claims hpeek hclaims => ?_).bind fun _ =>
      (spares_revokeOwned fun claims hpeek hclaims => ?_).bind fun _ => spares_delete
    · exact ⟨accessToken, List.mem_cons_self, claims, hpeek, hclaims, rfl⟩
    · exact ⟨refreshToken, List.mem_cons_of_mem _ List.mem_cons_self, claims, hpeek, hclaims, rfl⟩
  | verify token =>
    refine spares_verify_bind fun claims hpeek => ?_
    exact (spares_requireNotRevoked (hacts claims hpeek)).bind fun _ => upholds_pure _
  | revoke token =>
    refine spares_peek_bind fun claims _ => spares_revoke fun claims hpeek => ?_
    exact ⟨token, List.mem_cons_self, claims, hpeek, hacts claims hpeek, rfl⟩
  | revokeAll owner =>
    obtain rfl : owner = user := hacts
    exact spares_revokeAll
  | session owner =>
    obtain rfl : owner = user := hacts
    exact spares_get
  | holdsToken owner token =>
    obtain rfl : owner = user := hacts
    exact spares_holdsToken token
  | isRevoked tokenId => exact spares_isRevoked tokenId
  | tidy => exact absurd hacts id

/-- However an operation for a user ends, and whatever happens to the caches meanwhile, it leaves
all others as they are. -/
theorem carry_apart (hreached : f.origin.sessions.Reached) {o : Operation}
    (hacts : o.ActsFor f.origin.users (f.issuer i) user) {amid : Schedule n}
    (hamid : ∀ incidents ∈ amid, ∀ e ∈ incidents, e.Timeless) :
    f.Apart user (o.Owns (f.issuer i) user) (f.carry i (.operation o) amid).2 :=
  ((spares_operation hacts).result ⟨Apart.refl .., hreached.coherent⟩ hamid).apart

/-- An operation for a user leaves all others as they are: their accounts, sessions and cutoffs, all
revocations but those of the user's own tokens that it retires, and what is live in the shared cache
under their keys. -/
theorem execute_apart (hreached : f.origin.sessions.Reached) {o : Operation}
    (hacts : o.ActsFor f.origin.users (f.issuer i) user) :
    f.Apart user (o.Owns (f.issuer i) user) (f.execute i o).2 := by
  have hnone : ∀ incidents ∈ ([] : Schedule n), ∀ e ∈ incidents, e.Timeless := by simp
  have hcarry := carry_apart hreached hacts hnone
  have hsame : f.carry i (.operation o) [] = f.execute i o := performAmid_nil ..
  rwa [hsame] at hcarry

/-- A run goes on from sessions that calls have made to sessions that calls have made. -/
theorem reached_play (h : f.origin.sessions.Reached) (moves : List (Move n)) :
    (f.play moves).origin.sessions.Reached := by
  refine play_keeps (P := fun g => g.origin.sessions.Reached) (fun g i r hg => ?_)
    (fun g e hg => ?_) h moves
  · rw [answer_sessions]
    cases r with
    | session c => exact hg.perform c
    | _ => exact hg
  · rw [happen_origin]
    exact hg

open Demo

/-- User 4 logs out with a token of user 42, who stays logged in. -/
theorem execute_apart_demo :
    let f := demo.play [demoLogin 0]
    let g := (f.execute 1 (.logout ⟨4⟩ demoRefreshToken demoRefreshToken)).2
    g.origin.sessions.rows.get? demoUser = f.origin.sessions.rows.get? demoUser ∧
      g.shared.lookup g.clock (Key.session demoUser) =
        f.shared.lookup f.clock (Key.session demoUser) := by
  intro f g
  have hreached : f.origin.sessions.Reached := reached_play (f := demo) .empty [demoLogin 0]
  let logout : Operation := .logout ⟨4⟩ demoRefreshToken demoRefreshToken
  have hapart : f.Apart ⟨4⟩ (logout.Owns (f.issuer 1) ⟨4⟩) g := execute_apart hreached rfl
  have hother : demoUser ≠ ⟨4⟩ := by decide
  exact ⟨hapart.sessions demoUser hother, hapart.cached demoUser hother _ List.mem_cons_self⟩

end Fleet

end Bearer
