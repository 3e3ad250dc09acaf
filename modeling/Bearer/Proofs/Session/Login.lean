/-
  What a login writes back.

  A login reads its user when it verifies the password and writes the whole user
  back at its end, with the time of the login.  Other calls never touch the
  users of record, but somebody else may write a user at any time.

  As long as nobody else writes a user whom some login has read and not yet
  written back, recording a login changes nothing but the time of the last
  login, and a user who has been deactivated stays so.  Otherwise what was
  written in between is lost.

  Main statements: `login_keeps_account` and `login_undoes_deactivation`.
-/
import Bearer.Proofs.Fleet.Interleaving
import Bearer.Proofs.Fleet.Start
import Bearer.Proofs.Session.Sourced
import Bearer.Proofs.Store.User

namespace Bearer

open Service

/-! ## Only logins ask for users -/

/-- Whether a request leaves the users of record alone. -/
def Request.SparesUsers : Request → Prop
  | .user _ => False
  | _ => True

theorem Request.OfSessions.sparesUsers {r : Request} (h : r.OfSessions) : r.SparesUsers := by
  cases r with
  | user c => exact absurd h id
  | _ => trivial

theorem Request.OfRevocations.sparesUsers {r : Request} (h : r.OfRevocations) :
    r.SparesUsers := by
  cases r with
  | user c => exact absurd h id
  | _ => trivial

theorem SessionTask.sparesUsers (t : SessionTask) : Confined Request.SparesUsers t.service :=
  t.confined.mono fun _ => Request.OfSessions.sparesUsers

theorem RevocationTask.sparesUsers (t : RevocationTask) :
    Confined Request.SparesUsers t.service :=
  t.confined.mono fun _ => Request.OfRevocations.sparesUsers

namespace Issuer

theorem sparesUsers_issue (issuer : Issuer) (kind : TokenKind) (user : UserId) (username : String)
    (time : Instant) : Confined Request.SparesUsers (issuer.issue kind user username time) :=
  (confined_lift _).bind fun _ => (confined_ask trivial).bind fun _ => confined_pure _

theorem sparesUsers_issuePair (issuer : Issuer) (user : UserId) (username : String) :
    Confined Request.SparesUsers (issuer.issuePair user username) :=
  (confined_now trivial).bind fun time => (issuer.sparesUsers_issue .access user username time).bind
    fun _ => (issuer.sparesUsers_issue .refresh user username time).bind fun _ => confined_pure _

theorem sparesUsers_verify (issuer : Issuer) (kind : TokenKind) (token : String) :
    Confined Request.SparesUsers (issuer.verify kind token) :=
  (confined_now trivial).bind fun _ => confined_lift _

end Issuer

namespace Auth

theorem sparesUsers_isRevoked (tokenId : String) :
    Confined Request.SparesUsers (isRevoked tokenId) := by
  refine (confined_ask trivial).bind fun remembered => ?_
  split
  · exact confined_pure _
  · exact (RevocationTask.contains tokenId).sparesUsers

theorem sparesUsers_requireNotRevoked (claims : Claims) :
    Confined Request.SparesUsers (requireNotRevoked claims) := by
  refine (sparesUsers_isRevoked _).bind fun revoked => ?_
  dsimp only
  split
  · exact confined_throw_bind _ _
  refine (RevocationTask.isUserRevoked _ _).sparesUsers.bind fun cutOff => ?_
  split
  · exact confined_lift (.error _)
  · exact confined_pure _

theorem sparesUsers_revokeOwned (issuer : Issuer) (user : UserId) (token : String) :
    Confined Request.SparesUsers (revokeOwned issuer user token) := by
  unfold revokeOwned
  split
  · exact confined_pure _
  split
  · exact confined_pure _
  refine (confined_now trivial).bind fun time => ?_
  split
  · exact confined_pure _
  · exact (RevocationTask.add _ _).sparesUsers

theorem sparesUsers_refresh (issuer : Issuer) (token : String) :
    Confined Request.SparesUsers (refresh issuer token) := by
  refine (issuer.sparesUsers_verify _ _).bind fun claims => ?_
  refine (sparesUsers_requireNotRevoked claims).bind fun _ => ?_
  refine (SessionTask.getByToken token).sparesUsers.bind fun session => ?_
  dsimp only
  split
  · exact confined_throw_bind _ _
  refine (issuer.sparesUsers_issuePair _ _).bind fun tokens => ?_
  refine (RevocationTask.add _ _).sparesUsers.bind fun _ => ?_
  refine (confined_now trivial).bind fun later => ?_
  split
  · exact (SessionTask.rotate _ _ _ _).sparesUsers.bind fun _ => confined_pure _
  · exact confined_lift (.error _)

theorem sparesUsers_logout (issuer : Issuer) (user : UserId) (accessToken refreshToken : String) :
    Confined Request.SparesUsers (logout issuer user accessToken refreshToken) :=
  (sparesUsers_revokeOwned issuer user accessToken).bind fun _ =>
    (sparesUsers_revokeOwned issuer user refreshToken).bind fun _ =>
      (SessionTask.delete user).sparesUsers

theorem sparesUsers_verify (issuer : Issuer) (token : String) :
    Confined Request.SparesUsers (verify issuer token) :=
  (issuer.sparesUsers_verify _ _).bind fun claims =>
    (sparesUsers_requireNotRevoked claims).bind fun _ => confined_pure _

theorem sparesUsers_revoke (issuer : Issuer) (token : String) :
    Confined Request.SparesUsers (revoke issuer token) :=
  (confined_lift _).bind fun _ =>
    (issuer.confined_revoke _ _).mono fun _ => Request.OfRevocations.sparesUsers

theorem sparesUsers_revokeAll (issuer : Issuer) (user : UserId) :
    Confined Request.SparesUsers (revokeAll issuer user) :=
  (confined_now trivial).bind fun cutoff => (confined_lift _).bind fun lastExpiry =>
    (RevocationTask.revokeUser user cutoff lastExpiry).sparesUsers.bind fun _ =>
      (SessionTask.delete user).sparesUsers.bind fun _ =>
        (confined_cache _ trivial).bind fun _ => confined_pure _

theorem sparesUsers_holdsToken (user : UserId) (token : String) :
    Confined Request.SparesUsers (holdsToken user token) := by
  refine Confined.attempt (SessionTask.get user).sparesUsers fun found => ?_
  split
  · split
    · exact confined_pure _
    · refine Confined.attempt (SessionTask.getByToken token).sparesUsers fun byToken => ?_
      split
      · exact confined_pure _
      · exact confined_pure _
      · exact confined_lift (.error _)
  · exact confined_pure _
  · exact confined_pure _
  · exact confined_lift (.error _)

end Auth

/-- An operation that is no login never asks for users. -/
theorem Operation.sparesUsers (issuer : Issuer) {o : Operation} (ho : ¬ o.Opens) :
    Confined Request.SparesUsers (o.service issuer) := by
  cases o with
  | login username password => exact absurd ⟨username, password, rfl⟩ ho
  | refresh token => exact Auth.sparesUsers_refresh issuer token
  | logout user accessToken refreshToken =>
    exact Auth.sparesUsers_logout issuer user accessToken refreshToken
  | verify token => exact Auth.sparesUsers_verify issuer token
  | revoke token => exact Auth.sparesUsers_revoke issuer token
  | revokeAll user => exact Auth.sparesUsers_revokeAll issuer user
  | session user => exact (SessionTask.get user).sparesUsers
  | holdsToken user token => exact Auth.sparesUsers_holdsToken user token
  | isRevoked tokenId => exact Auth.sparesUsers_isRevoked tokenId
  | tidy =>
    exact SessionTask.purge.sparesUsers.bind fun _ =>
      RevocationTask.purge.sparesUsers.bind fun _ => confined_pure _

/-! ## What a login writes -/

/-- Whether a request writes no user, but the one that has been read with a time of login. -/
def Request.NotesLogin (h : History) : Request → Prop
  | .user (.update written) => ∃ username password found time,
      ⟨.user (.verify username password), .ok found⟩ ∈ h ∧
        written = { found with lastLoginAt := some time }
  | .user (.create ..) => False
  | _ => True

theorem Request.SparesUsers.notesLogin {r : Request} (h : r.SparesUsers) (before : History) :
    r.NotesLogin before := by
  cases r with
  | user c => exact absurd h id
  | _ => trivial

/-- What comes after a service that spares users still knows the user that has been read. -/
theorem Service.Confined.notesLogin_bind {α β : Type} {h : History} {s : Service α}
    {next : α → Service β} (hs : Confined Request.SparesUsers s)
    (hnext : ∀ (h' : History) a, h <:+ h' →
      Obeys (fun h r => r.NotesLogin h) (fun _ _ => True) h' (next a)) :
    Obeys (fun h r => r.NotesLogin h) (fun _ _ => True) h (s >>= next) := by
  rw [obeys_bind]
  refine (hs h).grows.mono (fun h' r hr => hr.notesLogin h') fun h' result hresult => ?_
  cases result with
  | ok a => exact hnext h' a hresult.1
  | error e => exact trivial

theorem Auth.notesLogin_login (issuer : Issuer) (username password : String) :
    Obeys (fun h r => r.NotesLogin h) (fun _ _ => True) [] (login issuer username password) := by
  rw [login, obeys_bind, obeys_user]
  refine ⟨trivial, fun reply => ?_⟩
  cases reply with
  | error e => exact trivial
  | ok user =>
    refine (issuer.sparesUsers_issuePair _ _).notesLogin_bind fun h₁ tokens hext => ?_
    refine (SessionTask.create _ _ _).sparesUsers.notesLogin_bind fun h₂ _ hext' => ?_
    refine (obeys_bind _ _ _).2 ?_
    rw [recordLogin, obeys_bind, obeys_now]
    refine ⟨trivial, fun time => ?_⟩
    refine ⟨⟨username, password, user, time, ?_, rfl⟩, fun reply => trivial⟩
    exact List.mem_cons_of_mem _ (hext'.mem (hext.mem (List.mem_cons_self ..)))

/-- No operation writes a user other than by noting a login. -/
theorem Operation.notesLogin (issuer : Issuer) (o : Operation) :
    Obeys (fun h r => r.NotesLogin h) (fun _ _ => True) [] (o.service issuer) := by
  by_cases ho : o.Opens
  · obtain ⟨username, password, rfl⟩ := ho
    exact Auth.notesLogin_login issuer username password
  · exact (Operation.sparesUsers issuer ho []).mono (fun h r hr => hr.notesLogin h)
      fun _ _ _ => trivial

/-! ## Writing users from outside -/

/-- The user that an exchange has read. -/
def Exchange.read? : Exchange → Option User
  | ⟨.user (.verify ..), .ok found⟩ => some found
  | _ => none

/-- The user as someone else than a login writes it. -/
def User.sansLogin (user : User) : User := { user with lastLoginAt := none }

/-- Users who differ in their last login at most. -/
theorem User.eq_of_sansLogin {user other : User} (h : user.sansLogin = other.sansLogin) :
    user = { other with lastLoginAt := user.lastLoginAt } := by
  obtain ⟨id, username, isActive, lastLoginAt, createdAt⟩ := user
  obtain ⟨id', username', isActive', lastLoginAt', createdAt'⟩ := other
  simp only [sansLogin, User.mk.injEq, true_and] at h ⊢
  exact h

/-- One occurrence of a run: a turn, or somebody else writes a user. -/
inductive Occurrence (n : Nat) where
  | turn (t : Turn n)
  | update (user : User)
  deriving DecidableEq, Repr

open Fleet

namespace Parallel

variable {n : Nat} {s : Parallel n} {k : Nat} {c : Call n} {username : String} {account : Account}

/-- The state after an occurrence. -/
def occur (s : Parallel n) : Occurrence n → Parallel n
  | .turn t => s.turn t
  | .update user =>
    { s with fleet := { s.fleet with
        origin := (Origin.user (.update user) s.fleet.wall s.fleet.origin).2 } }

/-- The state after a run. -/
def undergo (s : Parallel n) (course : List (Occurrence n)) : Parallel n := course.foldl occur s

@[simp] theorem undergo_cons (s : Parallel n) (o : Occurrence n) (course : List (Occurrence n)) :
    s.undergo (o :: course) = (s.occur o).undergo course := rfl

theorem undergo_append (s : Parallel n) (before after : List (Occurrence n)) :
    s.undergo (before ++ after) = (s.undergo before).undergo after := List.foldl_append

/-- What is on record under a user name. -/
def account? (s : Parallel n) (username : String) : Option Account :=
  s.fleet.origin.users.accounts.get? username

/-- Whether some call has read the user of a name and has not ended. -/
def LoggingIn (s : Parallel n) (username : String) : Prop :=
  ∃ c ∈ s.calls, c.isDone = false ∧ ∃ x ∈ c.history, x.read?.map User.username = some username

instance (s : Parallel n) (username : String) : Decidable (s.LoggingIn username) :=
  inferInstanceAs (Decidable (∃ c ∈ s.calls, c.isDone = false ∧
    ∃ x ∈ c.history, x.read?.map User.username = some username))

/-- Whether nobody else writes a user whom a call has read before that call has ended. -/
def Undisturbed (s : Parallel n) : List (Occurrence n) → Prop
  | [] => True
  | .turn t :: course => (s.turn t).Undisturbed course
  | .update user :: course =>
    ¬ s.LoggingIn user.username ∧ (s.occur (.update user)).Undisturbed course

/-- Runs can be tried. -/
def decideUndisturbed :
    (s : Parallel n) → (course : List (Occurrence n)) → Decidable (s.Undisturbed course)
  | _, [] => isTrue trivial
  | s, .turn t :: course => decideUndisturbed (s.turn t) course
  | s, .update user :: course =>
    have := decideUndisturbed (s.occur (.update user)) course
    inferInstanceAs (Decidable
      (¬ s.LoggingIn user.username ∧ (s.occur (.update user)).Undisturbed course))

instance (s : Parallel n) (course : List (Occurrence n)) : Decidable (s.Undisturbed course) :=
  decideUndisturbed s course

/-- Whether what is on record under a name stays what it is, up to the time of the last login. -/
def Retains (s s' : Parallel n) (username : String) : Prop :=
  ∀ account, s.account? username = some account → ∃ time,
    s'.account? username = some { account with user := { account.user with lastLoginAt := time } }

theorem Retains.of_eq {s' : Parallel n} (h : s'.account? username = s.account? username) :
    s.Retains s' username :=
  fun account haccount => ⟨account.user.lastLoginAt, h.trans haccount⟩

/-- What holds as long as nobody disturbs a login. -/
structure Attentive (s : Parallel n) : Prop where
  keyed : s.fleet.origin.users.Keyed
  manners : s.Abides (fun _ _ h r => r.NotesLogin h) fun _ _ _ _ => True
  /-- What a call has read is still on record, up to the time of the last login. -/
  current : ∀ (k : Nat) (c : Call n), s.calls[k]? = some c → c.isDone = false → ∀ x ∈ c.history,
    ∀ found, x.read? = some found → ∃ account, s.account? found.username = some account ∧
      account.user.sansLogin = found.sansLogin

theorem attentive_idle {f : MemoryFleet n} (hkeyed : f.origin.users.Keyed) :
    (idle f).Attentive where
  keyed := hkeyed
  manners := abides_idle f
  current := by
    intro k c hc
    cases hc

theorem isDone_of_asks {r : Request} {next : r.Reply → Program c.operation.Result}
    (h : s.Asks k c r next) : c.isDone = false := by
  rw [Call.isDone, h.2]

/-- Writing a user who differs from the one on record in the last login only. -/
theorem retains_of_write {s' : Parallel n} {stored : Account} {written : User}
    (haccounts : s'.account? username =
      (s.fleet.origin.users.update written).2.accounts.get? username)
    (hstored : s.account? written.username = some stored)
    (hsame : stored.user.sansLogin = written.sansLogin) : s.Retains s' username := by
  rcases s.fleet.origin.users.update_cases written with
    ⟨account, haccount, -, -, hwritten⟩ | ⟨-, hkept⟩
  · rw [hwritten, Table.get?_insert] at haccounts
    split at haccounts
    · next heq =>
      intro before hbefore
      rw [heq, account?, haccount] at hbefore
      obtain rfl := Option.some.inj hbefore
      obtain rfl := Option.some.inj (haccount.symm.trans hstored)
      refine ⟨written.lastLoginAt, haccounts.trans (congrArg some ?_)⟩
      rw [← User.eq_of_sansLogin hsame.symm]
    · exact Retains.of_eq haccounts
  · rw [hkept] at haccounts
    exact Retains.of_eq haccounts

/-- A turn changes what is on record by noting logins only. -/
theorem Attentive.retains (h : s.Attentive) (t : Turn n) (username : String) :
    s.Retains (s.turn t) username := by
  rcases turn_cases s t with ⟨i, o, rfl⟩ | ⟨e, rfl⟩ | ⟨k, c, r, next, rfl, hasks⟩ | hidle
  · exact Retains.of_eq rfl
  · refine Retains.of_eq ?_
    show (s.fleet.happen e).origin.users.accounts.get? username = _
    rw [happen_origin]
    rfl
  · have haccounts : (s.turn (.step k)).account? username =
        (answer c.place r s.fleet).2.origin.users.accounts.get? username := by
      rw [turn_step hasks]
      rfl
    have hmanners := h.manners.asks hasks
    rw [answer_users] at haccounts
    cases r with
    | user call =>
      cases call with
      | verify name password => exact Retains.of_eq haccounts
      | create name password => exact absurd hmanners id
      | update written =>
        -- What is written has been read by the same call, and is still on record.
        obtain ⟨name, password, found, time, hread, rfl⟩ := hmanners
        obtain ⟨stored, hstored, hsame⟩ :=
          h.current k c hasks.1 (isDone_of_asks hasks) _ hread found rfl
        exact retains_of_write haccounts hstored hsame
    | _ => exact Retains.of_eq haccounts
  · exact Retains.of_eq (by rw [hidle])

/-- Whoever has just been read is on record. -/
theorem stored_of_read (hkeyed : s.fleet.origin.users.Keyed) {i : Fin n} {r : Request}
    {found : User} (hread : Exchange.read? ⟨r, (answer i r s.fleet).1⟩ = some found) :
    ∃ account, s.account? found.username = some account ∧
      account.user.sansLogin = found.sansLogin := by
  cases r with
  | user call =>
    cases call with
    | verify name password =>
      have hreply : (answer i (.user (.verify name password)) s.fleet).1 =
          s.fleet.origin.users.verify name password := rfl
      rw [hreply] at hread
      cases hverify : s.fleet.origin.users.verify name password with
      | error e =>
        rw [hverify] at hread
        cases hread
      | ok user =>
        rw [hverify] at hread
        obtain rfl := Option.some.inj hread
        obtain ⟨account, haccount, rfl⟩ := UserStore.stored_of_verify hverify
        rw [hkeyed name account haccount]
        exact ⟨account, haccount, rfl⟩
    | _ => cases hread
  | _ => cases hread

theorem Attentive.turn (h : s.Attentive) (t : Turn n) : (s.turn t).Attentive where
  keyed := by
    rcases turn_cases s t with ⟨i, o, rfl⟩ | ⟨e, rfl⟩ | ⟨k, c, r, next, rfl, hasks⟩ | hidle
    · exact h.keyed
    · show (s.fleet.happen e).origin.users.Keyed
      rw [happen_origin]
      exact h.keyed
    · rw [turn_step hasks]
      show (answer c.place r s.fleet).2.origin.users.Keyed
      rw [answer_users]
      cases r with
      | user call => exact h.keyed.perform s.fleet.wall call
      | _ => exact h.keyed
    · rw [hidle]
      exact h.keyed
  manners := h.manners.turn Operation.notesLogin t
  current := by
    intro k c' hc' hpending x hx found hread
    -- What was on record before the turn still is, up to a login.
    suffices hbefore : ∃ account, s.account? found.username = some account ∧
        account.user.sansLogin = found.sansLogin by
      obtain ⟨account, haccount, hsame⟩ := hbefore
      obtain ⟨time, hafter⟩ := h.retains t found.username account haccount
      exact ⟨_, hafter, hsame⟩
    rcases call_of_turn hc' with ⟨-, i, o, -, rfl⟩ | ⟨c, r, next, rfl, hasks, rfl⟩ | hsame
    · cases hx
    · rcases List.mem_cons.1 hx with rfl | hx
      · exact stored_of_read h.keyed hread
      · exact h.current k c hasks.1 (isDone_of_asks hasks) x hx found hread
    · exact h.current k c' hsame hpending x hx found hread

/-- Somebody else may write a user whom no call has read and not yet written back. -/
theorem Attentive.update (h : s.Attentive) {user : User} (hfree : ¬ s.LoggingIn user.username) :
    (s.occur (.update user)).Attentive where
  keyed := h.keyed.update user
  manners := h.manners
  current := by
    intro k c hc hpending x hx found hread
    have hne : found.username ≠ user.username := by
      intro heq
      refine hfree ⟨c, List.mem_of_getElem? hc, hpending, x, hx, ?_⟩
      rw [hread, Option.map_some, heq]
    obtain ⟨account, haccount, hsame⟩ := h.current k c hc hpending x hx found hread
    exact ⟨account, (UserStore.get?_update_of_ne hne).trans haccount, hsame⟩

theorem Undisturbed.of_append {before after : List (Occurrence n)}
    (h : s.Undisturbed (before ++ after)) :
    s.Undisturbed before ∧ (s.undergo before).Undisturbed after := by
  induction before generalizing s with
  | nil => exact ⟨trivial, h⟩
  | cons o before ih =>
    cases o with
    | turn t => exact ih h
    | update user =>
      obtain ⟨hbefore, hafter⟩ := ih h.2
      exact ⟨⟨h.1, hbefore⟩, hafter⟩

theorem Attentive.undergo (h : s.Attentive) {course : List (Occurrence n)}
    (hcourse : s.Undisturbed course) : (s.undergo course).Attentive := by
  induction course generalizing s with
  | nil => exact h
  | cons o course ih =>
    cases o with
    | turn t => exact ih (h.turn t) hcourse
    | update user => exact ih (h.update hcourse.1) hcourse.2

/-! ## Deactivated users -/

/-- Whether the user of a name is on record as deactivated. -/
def Deactivated (s : Parallel n) (username : String) : Prop :=
  ∃ account, s.account? username = some account ∧ account.user.isActive = false

/-- Writing a user as deactivated, or another one, keeps a user deactivated. -/
theorem Deactivated.update (h : s.Deactivated username) {user : User}
    (huser : user.username = username → user.isActive = false) :
    (s.occur (.update user)).Deactivated username := by
  obtain ⟨account, haccount, hinactive⟩ := h
  by_cases hname : username = user.username
  · subst hname
    rcases s.fleet.origin.users.update_cases user with ⟨old, -, -, -, haccounts⟩ | ⟨-, hsame⟩
    · refine ⟨{ old with user }, ?_, huser rfl⟩
      show (s.fleet.origin.users.update user).2.accounts.get? user.username = _
      rw [haccounts, Table.get?_insert_self]
    · refine ⟨account, ?_, hinactive⟩
      show (s.fleet.origin.users.update user).2.accounts.get? user.username = _
      rw [hsame]
      exact haccount
  · exact ⟨account, (UserStore.get?_update_of_ne hname).trans haccount, hinactive⟩

/-- Writing a user as deactivated deactivates the user. -/
theorem deactivated_of_update {user : User}
    (hdone : (s.fleet.origin.users.update user).1 = .ok ()) (hinactive : user.isActive = false) :
    (s.occur (.update user)).Deactivated user.username := by
  rcases s.fleet.origin.users.update_cases user with ⟨old, -, -, -, haccounts⟩ | ⟨hfailed, -⟩
  · refine ⟨{ old with user }, ?_, hinactive⟩
    show (s.fleet.origin.users.update user).2.accounts.get? user.username = _
    rw [haccounts, Table.get?_insert_self]
  · rw [hfailed] at hdone
    cases hdone

theorem Deactivated.undergo (h : s.Deactivated username) (hattentive : s.Attentive)
    {course : List (Occurrence n)} (hcourse : s.Undisturbed course)
    (hlater : ∀ user, .update user ∈ course → user.username = username → user.isActive = false) :
    (s.undergo course).Deactivated username := by
  induction course generalizing s with
  | nil => exact h
  | cons o course ih =>
    have hrest : ∀ user, .update user ∈ course → user.username = username →
        user.isActive = false :=
      fun user huser => hlater user (List.mem_cons_of_mem _ huser)
    cases o with
    | turn t =>
      obtain ⟨account, haccount, hinactive⟩ := h
      obtain ⟨time, hafter⟩ := hattentive.retains t username account haccount
      exact ih ⟨_, hafter, hinactive⟩ (hattentive.turn t) hcourse hrest
    | update user =>
      exact ih (h.update (hlater user (List.mem_cons_self ..))) (hattentive.update hcourse.1)
        hcourse.2 hrest

/-- As long as nobody else writes a user whom a login has read before that login has ended: turns
change nothing on record but the time of a last login, and once somebody has written a user as
deactivated, the user stays so until somebody writes otherwise. -/
theorem login_keeps_account {f : MemoryFleet n} (hreached : f.origin.users.Reached)
    {course : List (Occurrence n)} (hcourse : (idle f).Undisturbed course) :
    (∀ before t after, course = before ++ .turn t :: after → ∀ username,
      ((idle f).undergo before).Retains ((idle f).undergo (before ++ [.turn t])) username) ∧
    (∀ before user after, course = before ++ .update user :: after →
      (((idle f).undergo before).fleet.origin.users.update user).1 = .ok () →
      user.isActive = false →
      (∀ user', .update user' ∈ after → user'.username = user.username →
        user'.isActive = false) →
      ((idle f).undergo course).Deactivated user.username) := by
  have hidle : (idle f).Attentive := attentive_idle hreached.keyed
  constructor
  · rintro before t after rfl username
    rw [undergo_append]
    exact (hidle.undergo hcourse.of_append.1).retains t username
  · rintro before user after rfl hdone hinactive hlater
    obtain ⟨hbefore, hfree, hafter⟩ := hcourse.of_append
    rw [undergo_append, undergo_cons]
    exact (deactivated_of_update hdone hinactive).undergo
      ((hidle.undergo hbefore).update hfree) hafter hlater

/-! ## The demo user -/

open Fleet.Demo

/-- The demo user, written as deactivated by somebody else. -/
def demoDeactivated : User where
  id := demoUser
  username := "demo"
  isActive := false
  lastLoginAt := none
  createdAt := .epoch

/-- A login that is carried out, and one that is called just before the user is deactivated. -/
def demoDeactivation (i j : Fin 2) : List (Occurrence 2) :=
  .turn (.start i (.login "demo" "demo")) :: List.replicate 10 (.turn (.step 0)) ++
    [.turn (.start j (.login "demo" "demo")), .update demoDeactivated, .turn (.step 1)]

/-- The demo user stays deactivated if no login has read the user before. -/
theorem login_keeps_account_demo :
    (idle demo).Undisturbed (demoDeactivation 0 1) ∧
      ((idle demo).undergo (demoDeactivation 0 1)).calls.all Call.isDone = true ∧
      ((idle demo).undergo (demoDeactivation 0 1)).Deactivated "demo" := by
  have hreached : demo.origin.users.Reached := .insert (.empty plainHasher) ..
  have hcourse : (idle demo).Undisturbed (demoDeactivation 0 1) := by decide +kernel
  refine ⟨hcourse, by decide +kernel, ?_⟩
  exact (login_keeps_account hreached hcourse).2
    (.turn (.start 0 (.login "demo" "demo")) :: List.replicate 10 (.turn (.step 0)) ++
      [.turn (.start 1 (.login "demo" "demo"))])
    demoDeactivated [.turn (.step 1)] (by simp [demoDeactivation]) (by decide +kernel) rfl (by simp)

/-- A login that has read the demo user before the user is deactivated writes the user back as
active. -/
theorem login_undoes_deactivation :
    let s := (idle demo).undergo [.turn (.start 0 (.login "demo" "demo")), .turn (.step 0)]
    let s' := (s.occur (.update demoDeactivated)).undergo (List.replicate 9 (.turn (.step 0)))
    (s.fleet.origin.users.update demoDeactivated).1 = .ok () ∧
      (s.occur (.update demoDeactivated)).Deactivated "demo" ∧
      s'.calls.all Call.isDone = true ∧
      (s'.account? "demo").map (fun account => account.user.isActive) = some true := by
  intro s s'
  have hdone : (s.fleet.origin.users.update demoDeactivated).1 = .ok () := by decide +kernel
  refine ⟨hdone, deactivated_of_update hdone rfl, ?_⟩
  decide +kernel

end Parallel

end Bearer
