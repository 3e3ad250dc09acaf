/-
  How failures end an operation.

  A fault of the sessions or revocations of record ends an operation at once and
  is its answer, and so does whatever keeps a password from being verified.  No
  other fault is ever answered, unless the times of the tokens to be issued make
  no sense: one of them lies past the end of the calendar, the clock moves while
  they are issued, or refresh tokens live for no time at all.

  Main definition: `Service.Frank`, which is kept by sequences, so that every
  service is frank because its parts are.  Main statement: `Operation.frank`.
-/
import Bearer.Proofs.Service.Conduct
import Bearer.Proofs.Time.Instant
import Bearer.Proofs.Token.RoundTrip

namespace Bearer

/-- Whether an error is the fault of a store or of the program itself. -/
def AuthError.isFault : AuthError → Bool
  | .persistence _ | .internal _ => true
  | _ => false

/-- The error that an exchange ends an operation with: a fault of the sessions or the revocations
of record, or whatever keeps a password from being verified. -/
def Exchange.failure? : Exchange → Option AuthError
  | ⟨.session _, .error e⟩ => if e.isFault then some e else none
  | ⟨.revocation _, .error e⟩ => if e.isFault then some e else none
  | ⟨.user (.verify ..), .error e⟩ => some e
  | _ => none

namespace History

/-- Whether nothing has failed so that the operation has to end. -/
def Clean (h : History) : Prop := ∀ x ∈ h, x.failure? = none

instance (h : History) : Decidable h.Clean :=
  inferInstanceAs (Decidable (∀ x ∈ h, x.failure? = none))

/-- Whether the times of the tokens to be issued make no sense. -/
def Mistimed (h : History) (config : TokenConfig) : Prop :=
  config.refreshLifetime.isZero = true ∨ (∃ t t', h.Told t ∧ h.Told t' ∧ t ≠ t') ∨
    ∃ t kind, h.Told t ∧ t.deadline? (config.lifetime kind) = none

/-- Whether a result accounts for a history.  A success follows on exchanges that have not failed;
an error is what the latest exchange has failed with, in the way that `loud` says, or else a fault
only if the times make no sense. -/
def AccountedFor {α : Type} (config : TokenConfig) (loud : AuthError → Prop) (h : History) :
    Except AuthError α → Prop
  | .ok _ => h.Clean
  | .error e => (∃ x before, h = x :: before ∧ x.failure? = some e ∧ loud e) ∨
      h.Clean ∧ (e.isFault = true → h.Mistimed config)

theorem Clean.cons {h : History} (hh : h.Clean) {x : Exchange} (hx : x.failure? = none) :
    Clean (x :: h) :=
  List.forall_mem_cons.2 ⟨hx, hh⟩

/-- Whether tokens of both kinds can have been issued at a time shown, refresh tokens until another
time. -/
def Spans (h : History) (config : TokenConfig) (expiresAt : Instant) : Prop :=
  ∃ time, h.Told time ∧ (∀ kind, (time.deadline? (config.lifetime kind)).isSome) ∧
    time.deadline? config.refreshLifetime = some expiresAt

variable {h : History} {config : TokenConfig} {time later time' expiresAt : Instant}

theorem Spans.of_subset {h' : History} (hsub : ∀ x ∈ h, x ∈ h') (hs : h.Spans config expiresAt) :
    h'.Spans config expiresAt := by
  obtain ⟨time, htold, hspans⟩ := hs
  exact ⟨time, hsub _ htold, hspans⟩

theorem Mistimed.of_subset {h' : History} (hsub : ∀ x ∈ h, x ∈ h') (hm : h.Mistimed config) :
    h'.Mistimed config := by
  rcases hm with hzero | ⟨t, t', ht, ht', hne⟩ | ⟨t, kind, ht, hnone⟩
  · exact Or.inl hzero
  · exact Or.inr (Or.inl ⟨t, t', hsub _ ht, hsub _ ht', hne⟩)
  · exact Or.inr (Or.inr ⟨t, kind, hsub _ ht, hnone⟩)

/-- Times make sense if the clock has stood still, tokens that are issued now expire before the end
of the calendar, and refresh tokens live for some time. -/
theorem not_mistimed {wall : Instant} (htold : ∀ t, h.Told t → t = wall)
    (hdeadlines : ∀ kind, (wall.deadline? (config.lifetime kind)).isSome)
    (hlifetime : config.refreshLifetime.isZero = false) : ¬ h.Mistimed config := by
  rintro (hzero | ⟨t, t', ht, ht', hne⟩ | ⟨t, kind, ht, hnone⟩)
  · rw [hlifetime] at hzero
    cases hzero
  · exact hne ((htold t ht).trans (htold t' ht').symm)
  · have hsome := hdeadlines kind
    rw [← htold t ht, hnone] at hsome
    cases hsome

/-- A token that has run out by the time it is looked at. -/
theorem mistimed_of_remaining (htold : h.Told time) (hlater : h.Told later)
    (hdeadline : time.deadline? config.refreshLifetime = some expiresAt)
    (hnone : expiresAt.remaining? later = none) : h.Mistimed config := by
  by_cases hsame : time = later
  · subst hsame
    rw [Instant.remaining?_deadline hdeadline] at hnone
    split at hnone
    · next hzero => exact Or.inl hzero
    · cases hnone
  · exact Or.inr (Or.inl ⟨time, later, htold, hlater, hsame⟩)

/-- The remaining time of a token leads to its expiry again. -/
theorem deadline_or_mistimed {ttl : Duration} (htold : h.Told time) (hlater : h.Told later)
    (htold' : h.Told time') (hdeadline : time.deadline? config.refreshLifetime = some expiresAt)
    (hsome : expiresAt.remaining? later = some ttl) :
    time'.deadline? ttl = some expiresAt ∨ h.Mistimed config := by
  by_cases hsame : time = later
  · subst hsame
    by_cases hsame' : time = time'
    · subst hsame'
      rw [Instant.remaining?_deadline hdeadline] at hsome
      split at hsome
      · cases hsome
      · rw [← Option.some.inj hsome]
        exact Or.inl hdeadline
    · exact Or.inr (Or.inr (Or.inl ⟨time, time', htold, htold', hsame'⟩))
  · exact Or.inr (Or.inr (Or.inl ⟨time, later, htold, hlater, hsame⟩))

end History

namespace Service

variable {α β : Type} {config : TokenConfig} {loud : AuthError → Prop} {h : History}

/-- Whether a service asks nothing more once something has failed, and its result accounts for what
has happened. -/
def Frank (config : TokenConfig) (loud : AuthError → Prop) (s : Service α) : Prop :=
  ∀ h : History, h.Clean → Obeys (fun h _ => h.Clean) (History.AccountedFor config loud) h s

/-! ## Rules -/

theorem Frank.mono {loud' : AuthError → Prop} {s : Service α} (hs : Frank config loud s)
    (hloud : ∀ e, loud e → loud' e) : Frank config loud' s := by
  intro h hh
  refine (hs h hh).mono (fun _ _ h => h) fun h' result hresult => ?_
  cases result with
  | ok a => exact hresult
  | error e =>
    rcases hresult with ⟨x, before, rfl, hx, he⟩ | hclean
    · exact Or.inl ⟨x, before, rfl, hx, hloud e he⟩
    · exact Or.inr hclean

theorem frank_pure (a : α) : Frank config loud (pure a) := fun _ hh => hh

/-- What has a verdict already may have one that is no fault. -/
theorem frank_lift {verdict : Except AuthError α}
    (hverdict : ∀ e, verdict = .error e → e.isFault = false) :
    Frank config loud (liftM verdict : Service α) := by
  intro h hh
  rw [obeys_lift]
  cases verdict with
  | ok a => exact hh
  | error e => exact Or.inr ⟨hh, fun hfault => by simp [hverdict e rfl] at hfault⟩

theorem frank_throw {e : AuthError} (he : e.isFault = false) :
    Frank config loud (throw e : Service α) :=
  fun _ hh => Or.inr ⟨hh, fun hfault => by simp [he] at hfault⟩

/-- What comes after an error is not asked. -/
theorem frank_throw_bind {e : AuthError} (he : e.isFault = false) (next : α → Service β) :
    Frank config loud (throw e >>= next) :=
  fun _ hh => Or.inr ⟨hh, fun hfault => by simp [he] at hfault⟩

/-- What comes after a frank service knows what has been exchanged before it. -/
theorem Frank.obeys_bind {s : Service α} {next : α → Service β} (hs : Frank config loud s)
    (hh : h.Clean) (hnext : ∀ (h' : History) a, h <:+ h' → h'.Clean →
      Obeys (fun h _ => h.Clean) (History.AccountedFor config loud) h' (next a)) :
    Obeys (fun h _ => h.Clean) (History.AccountedFor config loud) h (s >>= next) := by
  rw [Service.obeys_bind]
  refine (Program.Obeys.grows (hs h hh)).mono (fun _ _ h => h) fun h' result hresult => ?_
  cases result with
  | ok a => exact hnext h' a hresult.1 hresult.2
  | error e => exact hresult.2

theorem Frank.bind {s : Service α} {next : α → Service β} (hs : Frank config loud s)
    (hnext : ∀ a, Frank config loud (next a)) : Frank config loud (s >>= next) :=
  fun _ hh => hs.obeys_bind hh fun h' a _ hh' => hnext a h' hh'

/-- An error that is an answer, too, has to be thrown on if it is a loud one. -/
theorem Frank.attempt {s : Service α} {next : Except AuthError α → Service β}
    (hs : Frank config loud s) (hok : ∀ a, Frank config loud (next (.ok a)))
    (hloud : ∀ e, loud e → next (.error e) = throw e)
    (herror : ∀ e, next (.error e) = throw e ∨ Frank config loud (next (.error e))) :
    Frank config loud (ExceptT.lift s.run >>= next) := by
  intro h hh
  rw [Service.obeys_bind, obeys_attempt]
  refine (hs h hh).mono (fun _ _ h => h) fun h' result hresult => ?_
  cases result with
  | ok a => exact hok a h' hresult
  | error e =>
    dsimp only
    rcases herror e with hthrow | hnext
    · rw [hthrow]
      exact hresult
    · rcases hresult with ⟨x, before, rfl, hx, he⟩ | ⟨hclean, -⟩
      · rw [hloud e he]
        exact Or.inl ⟨x, before, rfl, hx, he⟩
      · exact hnext h' hclean

/-- A request whose reply cannot fail. -/
theorem frank_ask {r : Request} (hr : ∀ reply, Exchange.failure? ⟨r, reply⟩ = none) :
    Frank config loud (ask r) :=
  fun _ hh => ⟨hh, fun reply => hh.cons (hr reply)⟩

theorem frank_now : Frank config loud now := frank_ask fun _ => rfl

theorem frank_cache (c : CacheCall) : Frank config loud (cache c) := frank_ask fun _ => rfl

/-- A reply accounts for the exchange in which it was given, if its faults are what that has failed
with. -/
theorem accountedFor_reply {x : Exchange} {reply : Except AuthError α} (hh : h.Clean)
    (hx : x.failure? = match reply with
      | .ok _ => none
      | .error e => if e.isFault then some e else none) :
    History.AccountedFor config (·.isFault) (x :: h) reply := by
  cases reply with
  | ok a => exact hh.cons hx
  | error e =>
    dsimp only at hx
    split at hx
    · next hfault => exact Or.inl ⟨x, h, rfl, hx, hfault⟩
    · next hfault => exact Or.inr ⟨hh.cons hx, fun h => absurd h hfault⟩

theorem frank_session (c : SessionCall) : Frank config (·.isFault) (session c) := by
  intro h hh
  refine (obeys_session c _).2 ⟨hh, fun reply => accountedFor_reply hh ?_⟩
  cases reply <;> rfl

theorem frank_revocation (c : RevocationCall) :
    Frank config (·.isFault) (revocation c) := by
  intro h hh
  refine (obeys_revocation c _).2 ⟨hh, fun reply => accountedFor_reply hh ?_⟩
  cases reply <;> rfl

/-- Whatever keeps a password from being verified ends the operation. -/
theorem frank_password (username password : String) :
    Frank config (fun _ => True) (user (.verify username password)) := by
  intro h hh
  refine (obeys_user _ _).2 ⟨hh, fun reply => ?_⟩
  cases reply with
  | ok user => exact hh.cons rfl
  | error e => exact Or.inl ⟨_, h, rfl, rfl, trivial⟩

end Service

open Service

variable {config : TokenConfig} {h : History}

/-! ## Revocations -/

namespace Blacklist

theorem frank_keep (r : Revocation) : Frank config (·.isFault) (keep r) := by
  refine frank_now.bind fun time => ?_
  split
  · exact (frank_cache _).bind fun _ => frank_pure _
  · exact frank_pure _

theorem frank_add (tokenId : String) (expiresAt : Instant) :
    Frank config (·.isFault) (add tokenId expiresAt) :=
  (frank_revocation _).bind fun _ => frank_now.bind fun _ => frank_keep _

theorem frank_isRecorded (tokenId : String) (time : Instant) :
    Frank config (·.isFault) (isRecorded tokenId time) := by
  refine (frank_revocation _).bind fun found => ?_
  split
  · exact (frank_keep _).bind fun _ => frank_pure _
  · exact frank_pure _

theorem frank_contains (tokenId : String) : Frank config (·.isFault) (contains tokenId) := by
  refine frank_now.bind fun time => (frank_cache _).bind fun cached => ?_
  split
  · split
    · exact frank_pure _
    · exact frank_isRecorded tokenId time
  · exact frank_isRecorded tokenId time

theorem frank_loadCutoff (user : UserId) : Frank config (·.isFault) (loadCutoff user) := by
  refine frank_now.bind fun time => (frank_revocation _).bind fun found => ?_
  split
  · exact (frank_cache _).bind fun _ => frank_pure _
  · exact frank_pure _

theorem frank_revokeUser (user : UserId) (revokedBefore expiresAt : Instant) :
    Frank config (·.isFault) (revokeUser user revokedBefore expiresAt) :=
  (frank_revocation _).bind fun _ => (frank_loadCutoff user).bind fun _ => frank_pure _

theorem frank_isUserRevoked (user : UserId) (issuedAt : Instant) :
    Frank config (·.isFault) (isUserRevoked user issuedAt) := by
  refine (frank_cache _).bind fun cached => ?_
  dsimp only
  split
  · exact (frank_pure _).bind fun _ => frank_pure _
  · exact (frank_loadCutoff user).bind fun _ => frank_pure _

theorem frank_purge : Frank config (·.isFault) purge :=
  frank_now.bind fun _ => frank_revocation _

end Blacklist

/-! ## Sessions -/

namespace Sessions

theorem frank_invalidate (user : UserId) : Frank config (·.isFault) (invalidate user) :=
  (frank_cache _).bind fun _ => frank_pure _

theorem frank_keep (s : Session) : Frank config (·.isFault) (keep s) := by
  refine frank_now.bind fun time => ?_
  split
  · exact (frank_cache _).bind fun _ => frank_pure _
  · exact frank_invalidate _

theorem frank_create (user : UserId) (token : String) (expiresAt : Instant) :
    Frank config (·.isFault) (create user token expiresAt) :=
  frank_now.bind fun _ => (frank_session _).bind fun _ => (frank_keep _).bind fun _ => frank_pure _

theorem frank_load (user : UserId) (ended : Bool) :
    Frank config (·.isFault) (load user ended) := by
  refine frank_now.bind fun time => (frank_session _).bind fun found => ?_
  split
  · exact (frank_keep _).bind fun _ => frank_pure _
  · split <;> exact frank_throw rfl

theorem frank_get (user : UserId) : Frank config (·.isFault) (get user) := by
  refine (frank_cache _).bind fun cached => ?_
  split
  · refine frank_now.bind fun time => ?_
    split
    · exact (frank_invalidate user).bind fun _ => frank_load user true
    · exact frank_pure _
  · exact frank_load user false

theorem frank_getByToken (token : String) : Frank config (·.isFault) (getByToken token) := by
  refine frank_now.bind fun time => (frank_session _).bind fun found => ?_
  split
  · exact frank_pure _
  · exact frank_throw rfl

/-- A token is written for a span that makes sense wherever the clock has not moved. -/
theorem accounts_rotate (config : TokenConfig) {user : UserId} {old token : String}
    {ttl : Duration} (hh : h.Clean)
    (hspan : ∀ (h' : History) time, h <:+ h' → h'.Told time → time.deadline? ttl = none →
      h'.Mistimed config) :
    Obeys (fun h _ => h.Clean) (History.AccountedFor config (·.isFault)) h
      (rotate user old token ttl) := by
  rw [rotate, writeToken, obeys_bind, obeys_now]
  refine ⟨hh, fun time => ?_⟩
  have hnow : History.Clean (⟨.now, time⟩ :: h) := hh.cons rfl
  dsimp only
  rw [obeys_bind, obeys_lift, deadline]
  cases hdeadline : time.deadline? ttl with
  | none =>
    exact Or.inr ⟨hnow, fun _ =>
      hspan _ time (List.suffix_cons ..) (List.mem_cons_self ..) hdeadline⟩
  | some expiresAt =>
    refine Frank.bind (frank_session _) (fun written => ?_) _ hnow
    split
    · exact frank_invalidate user
    · exact frank_throw rfl

theorem frank_delete (user : UserId) : Frank config (·.isFault) (delete user) :=
  (frank_session _).bind fun _ => frank_invalidate user

theorem frank_purge : Frank config (·.isFault) purge :=
  frank_now.bind fun _ => frank_session _

end Sessions

/-! ## The issuer -/

namespace TokenConfig

/-- What is wrong with a token is no fault. -/
theorem isFault_of_token {e : AuthError} (he : OfToken e) : e.isFault = false := by
  rcases he with rfl | rfl | rfl <;> rfl

theorem isFault_of_decode (c : TokenConfig) {time : Option Instant} {token : String}
    {e : AuthError} (h : c.decode time token = .error e) : e.isFault = false :=
  Decidable.byContradiction fun he =>
    decode_ne_error (fun htoken => he (isFault_of_token htoken)) c time token h

theorem isFault_of_verify (c : TokenConfig) {kind : TokenKind} {now : Instant} {token : String}
    {e : AuthError} (h : c.verify kind now token = .error e) : e.isFault = false :=
  Decidable.byContradiction fun he =>
    verify_ne_error (fun htoken => he (isFault_of_token htoken)) c kind now token h

end TokenConfig

namespace Issuer

variable {issuer : Issuer}

/-- A token is issued at a time whenever that makes sense. -/
theorem times_issue {kind : TokenKind} {user : UserId} {username : String} {time : Instant}
    (htold : h.Told time) :
    Obeys (fun _ _ => True) (fun h' result => match result with
      | .ok (_, expiresAt) => time.deadline? (issuer.config.lifetime kind) = some expiresAt
      | .error _ => h'.Mistimed issuer.config) h
      (issuer.issue kind user username time) := by
  rw [issue, obeys_bind, obeys_lift, deadline]
  cases hdeadline : time.deadline? (issuer.config.lifetime kind) with
  | none => exact Or.inr (Or.inr ⟨time, kind, htold, hdeadline⟩)
  | some expiresAt => exact ⟨trivial, fun _ => rfl⟩

/-- A pair is issued at one of the times shown whenever they make sense. -/
theorem times_issuePair {user : UserId} {username : String} :
    Obeys (fun _ _ => True) (fun h' result => match result with
      | .ok pair => h'.Spans issuer.config pair.refreshExpiresAt
      | .error _ => h'.Mistimed issuer.config) h
      (issuer.issuePair user username) := by
  rw [issuePair, obeys_bind, obeys_now]
  refine ⟨trivial, fun time => ?_⟩
  dsimp only
  rw [obeys_bind]
  refine (times_issue (List.mem_cons_self ..)).grows.mono (fun _ _ h => h)
    fun h₁ access haccess => ?_
  obtain ⟨hext, haccess⟩ := haccess
  cases access with
  | error e => exact haccess
  | ok access =>
    have htold : h₁.Told time := hext.mem (List.mem_cons_self ..)
    dsimp only
    rw [obeys_bind]
    refine (times_issue htold).grows.mono (fun _ _ h => h) fun h₂ refresh hrefresh => ?_
    obtain ⟨hext', hrefresh⟩ := hrefresh
    cases refresh with
    | error e => exact hrefresh
    | ok refresh =>
      refine ⟨time, hext'.mem htold, fun kind => ?_, hrefresh⟩
      cases kind with
      | access => exact Option.isSome_iff_exists.2 ⟨_, haccess⟩
      | refresh => exact Option.isSome_iff_exists.2 ⟨_, hrefresh⟩

/-- Issuing meets with no failure: it asks for the time and for ids only. -/
theorem clean_issuePair {user : UserId} {username : String} (hh : h.Clean) :
    Obeys (fun h _ => h.Clean) (fun h' _ => h'.Clean) h (issuer.issuePair user username) := by
  have hissue : ∀ kind time (h : History), h.Clean →
      Obeys (fun h _ => h.Clean) (fun h' _ => h'.Clean) h
        (issuer.issue kind user username time) := by
    intro kind time h hh
    rw [issue, obeys_bind, obeys_lift]
    cases deadline time (issuer.config.lifetime kind) with
    | error e => exact hh
    | ok expiresAt => exact ⟨hh, fun _ => hh.cons rfl⟩
  rw [issuePair, obeys_bind, obeys_now]
  refine ⟨hh, fun time => ?_⟩
  dsimp only
  rw [obeys_bind]
  refine (hissue .access time _ (hh.cons rfl)).mono (fun _ _ h => h) fun h₁ access hh₁ => ?_
  cases access with
  | error e => exact hh₁
  | ok access =>
    dsimp only
    rw [obeys_bind]
    refine (hissue .refresh time _ hh₁).mono (fun _ _ h => h) fun h₂ refresh hh₂ => ?_
    cases refresh <;> exact hh₂

/-- A pair is issued whenever the times make sense, at one of the times shown. -/
theorem accounts_issuePair {user : UserId} {username : String} (hh : h.Clean) :
    Obeys (fun h _ => h.Clean) (fun h' result =>
      h'.AccountedFor issuer.config (·.isFault) result ∧ ∀ pair, result = .ok pair →
        ∃ time, h'.Told time ∧
          time.deadline? issuer.config.refreshLifetime = some pair.refreshExpiresAt) h
      (issuer.issuePair user username) := by
  refine ((clean_issuePair hh).and times_issuePair).mono (fun _ _ h => h.1) fun h' result hend => ?_
  obtain ⟨hclean, htimes⟩ := hend
  cases result with
  | error e => exact ⟨Or.inr ⟨hclean, fun _ => htimes⟩, fun _ => nofun⟩
  | ok pair =>
    refine ⟨hclean, fun pair' heq => ?_⟩
    obtain rfl := Except.ok.inj heq
    obtain ⟨time, htold, -, hdeadline⟩ := htimes
    exact ⟨time, htold, hdeadline⟩

theorem frank_issuePair (user : UserId) (username : String) :
    Frank issuer.config (·.isFault) (issuer.issuePair user username) :=
  fun _ hh => (accounts_issuePair hh).mono (fun _ _ h => h) fun _ _ h => h.1

theorem frank_verify (kind : TokenKind) (token : String) :
    Frank config (·.isFault) (issuer.verify kind token) :=
  frank_now.bind fun _ => frank_lift fun _ => issuer.config.isFault_of_verify

theorem frank_revoke (kind : TokenKind) (token : String) :
    Frank config (·.isFault) (issuer.revoke kind token) := by
  refine (frank_lift fun _ => issuer.config.isFault_of_decode).bind fun claims => ?_
  dsimp only
  split
  · exact frank_throw_bind rfl _
  refine frank_now.bind fun time => ?_
  split
  · exact frank_pure _
  refine (frank_ask fun _ => rfl).bind fun _ => ?_
  split
  · exact Blacklist.frank_add _ _
  · exact frank_pure _

end Issuer

/-! ## The facade -/

namespace Auth

theorem frank_isRevoked (tokenId : String) : Frank config (·.isFault) (isRevoked tokenId) := by
  refine (frank_ask fun _ => rfl).bind fun remembered => ?_
  split
  · exact frank_pure _
  · exact Blacklist.frank_contains tokenId

theorem frank_requireNotRevoked (claims : Claims) :
    Frank config (·.isFault) (requireNotRevoked claims) := by
  refine (frank_isRevoked _).bind fun revoked => ?_
  dsimp only
  split
  · exact frank_throw_bind rfl _
  refine (Blacklist.frank_isUserRevoked _ _).bind fun cutOff => ?_
  split
  · exact frank_throw rfl
  · exact frank_pure _

theorem frank_revokeOwned (issuer : Issuer) (user : UserId) (token : String) :
    Frank config (·.isFault) (revokeOwned issuer user token) := by
  unfold revokeOwned
  split
  · exact frank_pure _
  split
  · exact frank_pure _
  refine frank_now.bind fun time => ?_
  split
  · exact frank_pure _
  · exact Blacklist.frank_add _ _

theorem frank_login (issuer : Issuer) (username password : String) :
    Frank issuer.config (fun _ => True) (login issuer username password) := by
  refine (frank_password username password).bind fun user => ?_
  refine Frank.mono (?_ : Frank issuer.config (·.isFault) _) fun _ _ => trivial
  refine (Issuer.frank_issuePair _ _).bind fun tokens => ?_
  refine (Sessions.frank_create _ _ _).bind fun _ => ?_
  -- Whether the login can be noted down makes no difference.
  refine Frank.bind (frank_now.bind fun time => (frank_ask fun _ => rfl).bind fun _ =>
    frank_pure _) fun _ => frank_pure _

theorem frank_refresh (issuer : Issuer) (token : String) :
    Frank issuer.config (·.isFault) (refresh issuer token) := by
  refine (Issuer.frank_verify _ _).bind fun claims => ?_
  refine (frank_requireNotRevoked claims).bind fun _ => ?_
  refine (Sessions.frank_getByToken token).bind fun session => ?_
  dsimp only
  split
  · exact frank_throw_bind rfl _
  intro h hh
  rw [obeys_bind]
  refine (Issuer.accounts_issuePair hh).mono (fun _ _ h => h) fun h₁ tokens htokens => ?_
  obtain ⟨haccount, hissued⟩ := htokens
  cases tokens with
  | error e => exact haccount
  | ok tokens =>
    obtain ⟨time, htold, hdeadline⟩ := hissued tokens rfl
    dsimp only
    refine (Blacklist.frank_add _ _).obeys_bind haccount fun h₂ _ hext hh₂ => ?_
    rw [obeys_bind, obeys_now]
    refine ⟨hh₂, fun later => ?_⟩
    have hh₃ : History.Clean (⟨.now, later⟩ :: h₂) := hh₂.cons rfl
    have htold' : History.Told (⟨.now, later⟩ :: h₂) time :=
      List.mem_cons_of_mem _ (hext.mem htold)
    have hlater : History.Told (⟨.now, later⟩ :: h₂) later := List.mem_cons_self ..
    dsimp only
    -- What is left of the new token's time is written into the session.
    cases hremaining : tokens.refreshExpiresAt.remaining? later with
    | none =>
      exact Or.inr ⟨hh₃, fun _ =>
        History.mistimed_of_remaining htold' hlater hdeadline hremaining⟩
    | some ttl =>
      dsimp only
      rw [obeys_bind]
      refine (Sessions.accounts_rotate issuer.config hh₃ fun h' time' hext' htime' hnone => ?_).mono
        (fun _ _ h => h) fun h' written hwritten => ?_
      · refine (History.deadline_or_mistimed (hext'.mem htold') (hext'.mem hlater) htime' hdeadline
          hremaining).resolve_left fun hsome => ?_
        rw [hnone] at hsome
        cases hsome
      · cases written with
        | ok => exact hwritten
        | error e => exact hwritten

theorem frank_logout (issuer : Issuer) (user : UserId) (accessToken refreshToken : String) :
    Frank config (·.isFault) (logout issuer user accessToken refreshToken) :=
  (frank_revokeOwned issuer user accessToken).bind fun _ =>
    (frank_revokeOwned issuer user refreshToken).bind fun _ => Sessions.frank_delete user

theorem frank_verify (issuer : Issuer) (token : String) :
    Frank config (·.isFault) (verify issuer token) :=
  (Issuer.frank_verify _ _).bind fun claims =>
    (frank_requireNotRevoked claims).bind fun _ => frank_pure _

theorem frank_revoke (issuer : Issuer) (token : String) :
    Frank config (·.isFault) (revoke issuer token) :=
  (frank_lift fun _ => issuer.config.isFault_of_decode).bind fun _ => Issuer.frank_revoke _ _

theorem frank_revokeAll (issuer : Issuer) (user : UserId) :
    Frank issuer.config (·.isFault) (revokeAll issuer user) := by
  intro h hh
  rw [revokeAll, obeys_bind, obeys_now]
  refine ⟨hh, fun cutoff => ?_⟩
  have hh' : History.Clean (⟨.now, cutoff⟩ :: h) := hh.cons rfl
  dsimp only
  rw [obeys_bind, obeys_lift, deadline]
  cases hdeadline : cutoff.deadline? issuer.config.longestLifetime with
  | none =>
    -- The longest lifetime is one of the two.
    refine Or.inr ⟨hh', fun _ => Or.inr (Or.inr ⟨cutoff, ?_⟩)⟩
    rcases Nat.le_total issuer.config.accessLifetime.nanos issuer.config.refreshLifetime.nanos with
      hle | hle
    · refine ⟨.refresh, List.mem_cons_self .., ?_⟩
      rwa [TokenConfig.longestLifetime, Instant.deadline?, Duration.nanos_max,
        Nat.max_eq_right hle] at hdeadline
    · refine ⟨.access, List.mem_cons_self .., ?_⟩
      rwa [TokenConfig.longestLifetime, Instant.deadline?, Duration.nanos_max,
        Nat.max_eq_left hle] at hdeadline
  | some lastExpiry =>
    refine Frank.bind (Blacklist.frank_revokeUser user cutoff lastExpiry) (fun _ => ?_) _ hh'
    exact (Sessions.frank_delete user).bind fun _ => (frank_cache _).bind fun _ => frank_pure _

theorem frank_holdsToken (user : UserId) (token : String) :
    Frank config (·.isFault) (holdsToken user token) := by
  refine Frank.attempt (Sessions.frank_get user) (fun s => ?_) (fun e he => ?_) fun e => ?_
  · dsimp only
    split
    · exact frank_pure _
    -- The cached session may be older than the token, so the record is asked.
    refine Frank.attempt (Sessions.frank_getByToken token) (fun s => frank_pure _)
      (fun e he => ?_) fun e => ?_
    · cases e <;> first | rfl | cases he
    · cases e <;> first | exact Or.inl rfl | exact Or.inr (frank_pure _)
  · cases e <;> first | rfl | cases he
  · cases e <;> first | exact Or.inl rfl | exact Or.inr (frank_pure _)

end Auth

theorem Janitor.frank_tick : Frank config (·.isFault) Janitor.tick :=
  Sessions.frank_purge.bind fun _ => Blacklist.frank_purge.bind fun _ => frank_pure _

/-- Every operation is frank: it ends at once with what fails in the stores, and with no other
fault unless the times of its tokens make no sense. -/
theorem Operation.frank (issuer : Issuer) (o : Operation) :
    Frank issuer.config (fun _ => True) (o.service issuer) := by
  cases o with
  | login username password => exact Auth.frank_login issuer username password
  | refresh token => exact (Auth.frank_refresh issuer token).mono fun _ _ => trivial
  | logout user accessToken refreshToken =>
    exact (Auth.frank_logout issuer user accessToken refreshToken).mono fun _ _ => trivial
  | verify token => exact (Auth.frank_verify issuer token).mono fun _ _ => trivial
  | revoke token => exact (Auth.frank_revoke issuer token).mono fun _ _ => trivial
  | revokeAll user => exact (Auth.frank_revokeAll issuer user).mono fun _ _ => trivial
  | session user => exact (Sessions.frank_get user).mono fun _ _ => trivial
  | holdsToken user token => exact (Auth.frank_holdsToken user token).mono fun _ _ => trivial
  | isRevoked tokenId => exact (Auth.frank_isRevoked tokenId).mono fun _ _ => trivial
  | tidy => exact Janitor.frank_tick.mono fun _ _ => trivial

/-- What has failed in a history that is accounted for, the result is. -/
theorem History.AccountedFor.result_eq {α : Type} {loud : AuthError → Prop} {before : History}
    {x : Exchange} {e : AuthError} {result : Except AuthError α}
    (h : History.AccountedFor config loud (x :: before) result) (hx : x.failure? = some e) :
    result = .error e := by
  have hdirty : ¬ History.Clean (x :: before) := by
    intro hclean
    rw [hclean x (List.mem_cons_self ..)] at hx
    cases hx
  cases result with
  | ok a => exact absurd h hdirty
  | error e' =>
    rcases h with ⟨x', before', hsplit, hx', -⟩ | ⟨hclean, -⟩
    · obtain rfl := (List.cons.inj hsplit).1
      rw [Option.some.inj (hx'.symm.trans hx)]
    · exact absurd hclean hdirty

/-- Wherever a frank service runs, it asks nothing after what has failed, and its result accounts
for its history. -/
theorem Service.Frank.run {α σ : Type} {loud : AuthError → Prop} {s : Service α}
    (hs : Frank config loud s) (answer : (r : Request) → σ → r.Reply × σ) (state : σ) :
    (∀ after x before e, s.run.history answer state [] = after ++ x :: before →
      x.failure? = some e → (s.run.run answer state).1 = .error e ∧ after = []) ∧
    (s.run.history answer state []).AccountedFor config loud (s.run.run answer state).1 := by
  have hempty : History.Clean [] := by simp [History.Clean]
  -- Whatever is asked next, all that has been exchanged before is clean.
  obtain ⟨htail, hresult⟩ := (hs [] hempty).run answer (fun h _ => History.Clean h.tail)
    (fun h s r _ hclean => hclean) hempty
  refine ⟨fun after x before e hsplit hx => ?_, hresult⟩
  rw [hsplit] at htail hresult
  cases after with
  | nil => exact ⟨hresult.result_eq hx, rfl⟩
  | cons y after =>
    rw [List.cons_append, List.tail_cons] at htail
    rw [htail x (by simp)] at hx
    cases hx

end Bearer
