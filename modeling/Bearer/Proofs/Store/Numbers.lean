/-
  The numbers of users.

  A user is added under a number that the caller names, or created under the
  next one.  One counter serves both: adding a user raises it above the number
  added, and creating one moves it on even if the name turns out to be taken.
  So the counter exceeds every number on record, whatever is added, created and
  written, and a user who is created is not taken for another one.

  A number is a 64-bit word.  What is said of numbers is said as long as every
  number that is added or created has one above it; everything else is said of
  any changes.

  Main statements: `insert_cases`, `Bounded.make`, `createdIds_increase` and
  `created_users_fresh`.
-/
import Bearer.Proofs.Store.User

namespace Bearer

/-- A change to the users of record. -/
inductive UserChange where
  | insert (now : Instant) (id : UserId) (username password : String)
  | create (now : Instant) (username password : String)
  | update (user : User)

/-- What a change answers if it is made. -/
abbrev UserChange.Answer : UserChange → Type
  | insert .. | create .. => User
  | update _ => Unit

/-- A user who has just been added. -/
def User.added (now : Instant) (id : UserId) (username : String) : User :=
  { id, username, isActive := true, lastLoginAt := none, createdAt := now }

namespace UserStore

variable {s : UserStore} {now : Instant} {id : UserId} {username password : String}
variable {user : User} {change : UserChange} {changes : List UserChange}

/-- What a change answers, and the users after it. -/
def make (s : UserStore) : (change : UserChange) → Except AuthError change.Answer × UserStore
  | .insert now id username password => s.insert now id username password
  | .create now username password => s.perform now (.create username password)
  | .update user => s.update user

/-- The store after some changes. -/
def after (s : UserStore) (changes : List UserChange) : UserStore :=
  changes.foldl (fun s change => (s.make change).2) s

theorem Reached.make (h : s.Reached) (change : UserChange) : (s.make change).2.Reached := by
  cases change with
  | insert now id username password => exact h.insert now id username password
  | create now username password => exact h.perform now (.create username password)
  | update user => exact h.perform .epoch (.update user)

theorem Reached.after (h : s.Reached) (changes : List UserChange) : (s.after changes).Reached := by
  induction changes generalizing s with
  | nil => exact h
  | cons change changes ih => exact ih (h.make change)

/-- A store that keeps every user under the user's own name has no two users of one name. -/
theorem Keyed.usernames_nodup (h : s.Keyed) :
    (s.accounts.entries.map fun entry => entry.2.user.username).Nodup := by
  have hkeys : (s.accounts.entries.map fun entry => entry.2.user.username) = s.accounts.keys := by
    apply List.map_congr_left
    intro entry hentry
    exact h entry.1 entry.2 ((Table.mem_entries_iff ..).1 hentry)
  rw [hkeys]
  exact s.accounts.distinct

/-! ## What one change does -/

/-- A user is added under a name that is free, or the users and the next number stay, since the
name is taken or the password cannot be hashed. -/
theorem insert_cases (s : UserStore) (now : Instant) (id : UserId) (username password : String) :
    (∃ passwordHash, s.hasher.hash s.hashes password = .ok passwordHash ∧
      s.accounts.get? username = none ∧
      (s.insert now id username password).1 = .ok (.added now id username) ∧
      (s.insert now id username password).2.accounts =
        s.accounts.insert username ⟨.added now id username, passwordHash⟩ ∧
      (s.insert now id username password).2.nextId = max s.nextId (id.number.toNat + 1)) ∨
    ((∃ fault, (s.insert now id username password).1 = .error fault) ∧
      (s.insert now id username password).2.accounts = s.accounts ∧
      (s.insert now id username password).2.nextId = s.nextId ∧
      (s.accounts.get? username = none →
        ∃ fault, s.hasher.hash s.hashes password = .error fault)) := by
  unfold insert
  split
  · next fault hbroken => exact Or.inr ⟨⟨_, rfl⟩, rfl, rfl, fun _ => ⟨fault, hbroken⟩⟩
  · next passwordHash hhash =>
    have hcontains := s.accounts.contains_eq_isSome username
    dsimp only
    split
    · next htaken =>
      refine Or.inr ⟨⟨_, rfl⟩, rfl, rfl, fun hfree => ?_⟩
      simp [htaken, hfree] at hcontains
    · next hfree =>
      refine Or.inl ⟨passwordHash, hhash, ?_, rfl, rfl, rfl⟩
      simpa [hcontains] using hfree

/-- Writing a user keeps what number, name and password a name stands for. -/
theorem identity_update (h : s.Keyed) (user : User) (name : String) :
    ((s.update user).2.accounts.get? name).map
        (fun account => (account.user.id, account.user.username, account.passwordHash)) =
      (s.accounts.get? name).map
        (fun account => (account.user.id, account.user.username, account.passwordHash)) := by
  rcases s.update_cases user with ⟨account, hfound, hid, -, haccounts⟩ | ⟨-, hsame⟩
  · rw [haccounts, Table.get?_insert]
    split
    · next hname =>
      have hown : account.user.username = user.username := h user.username account hfound
      rw [hname, hfound]
      simp [hid, hown]
    · rfl
  · rw [hsame]

theorem nextId_update (s : UserStore) (user : User) : (s.update user).2.nextId = s.nextId := by
  unfold update
  split
  · split <;> rfl
  · rfl

theorem accounts_of_refused_insert {fault : AuthError}
    (h : (s.insert now id username password).1 = .error fault) :
    (s.insert now id username password).2.accounts = s.accounts := by
  rcases s.insert_cases now id username password with ⟨_, -, -, hdone, -⟩ | ⟨-, hsame, -⟩
  · rw [hdone] at h
    cases h
  · exact hsame

/-- A change that is refused leaves every user as is. -/
theorem accounts_of_refused {fault : AuthError} (h : (s.make change).1 = .error fault) :
    (s.make change).2.accounts = s.accounts := by
  cases change with
  | insert now id username password => exact accounts_of_refused_insert h
  | create now username password =>
    exact accounts_of_refused_insert (s := { s with nextId := s.nextId + 1 }) h
  | update user =>
    rcases s.update_cases user with ⟨_, -, -, hdone, -⟩ | ⟨-, hsame⟩
    · have hrefused : (s.update user).1 = .error fault := h
      rw [hdone] at hrefused
      cases hrefused
    · exact congrArg accounts hsame

/-- A user is created under the next number and a name that is free; the number is spent in any
case. -/
theorem create_cases (s : UserStore) (now : Instant) (username password : String) :
    (∃ passwordHash, s.hasher.hash s.hashes password = .ok passwordHash ∧
      s.accounts.get? username = none ∧
      (s.make (.create now username password)).1 =
        .ok (.added now ⟨UInt64.ofNat s.nextId⟩ username) ∧
      (s.make (.create now username password)).2.accounts = s.accounts.insert username
        ⟨.added now ⟨UInt64.ofNat s.nextId⟩ username, passwordHash⟩) ∨
    ((∃ fault, (s.make (.create now username password)).1 = .error fault) ∧
      (s.accounts.get? username = none →
        ∃ fault, s.hasher.hash s.hashes password = .error fault)) := by
  rcases insert_cases { s with nextId := s.nextId + 1 } now ⟨UInt64.ofNat s.nextId⟩ username
    password with ⟨passwordHash, hhash, hfree, hdone, haccounts, -⟩ | ⟨hrefused, -, -, hwhy⟩
  · exact Or.inl ⟨passwordHash, hhash, hfree, hdone, haccounts⟩
  · exact Or.inr ⟨hrefused, hwhy⟩

/-! ## The counter is above every number on record -/

/-- Whether the counter is a word and exceeds the number of every user. -/
structure Bounded (s : UserStore) : Prop where
  word : s.nextId < UInt64.size
  above : ∀ name account, s.accounts.get? name = some account →
    account.user.id.number.toNat < s.nextId

/-- The number that a change gives to a user if it is made. -/
def given? (s : UserStore) : UserChange → Option Nat
  | .insert _ id _ _ => some id.number.toNat
  | .create .. => some s.nextId
  | .update _ => none

/-- Whether every number that some changes add or create has one above it. -/
def InRange : UserStore → List UserChange → Prop
  | _, [] => True
  | s, change :: changes =>
    (∀ number ∈ s.given? change, number + 1 < UInt64.size) ∧ InRange (s.make change).2 changes

instance decidableInRange :
    (s : UserStore) → (changes : List UserChange) → Decidable (s.InRange changes)
  | _, [] => .isTrue trivial
  | s, change :: changes =>
    have := decidableInRange (s.make change).2 changes
    inferInstanceAs (Decidable (_ ∧ _))

theorem bounded_empty (hasher : Hasher) : (empty hasher).Bounded := by
  constructor
  · show 1 < UInt64.size
    decide
  · intro name account h
    cases h

theorem Bounded.insert (h : s.Bounded) (hid : id.number.toNat + 1 < UInt64.size) :
    (s.insert now id username password).2.Bounded := by
  have hword := h.word
  rcases s.insert_cases now id username password with
    ⟨passwordHash, -, -, -, haccounts, hnext⟩ | ⟨-, haccounts, hnext, -⟩
  · constructor
    · omega
    · intro name account hfound
      rw [haccounts, Table.get?_insert] at hfound
      split at hfound
      · obtain rfl := Option.some.inj hfound
        show id.number.toNat < _
        omega
      · have habove := h.above name account hfound
        omega
  · constructor
    · omega
    · intro name account hfound
      rw [haccounts] at hfound
      have habove := h.above name account hfound
      omega

theorem Bounded.update (h : s.Bounded) (user : User) : (s.update user).2.Bounded := by
  have hnext := s.nextId_update user
  constructor
  · exact hnext ▸ h.word
  · intro name account hfound
    rw [hnext]
    rcases s.update_cases user with ⟨old, hold, hid, -, haccounts⟩ | ⟨-, hsame⟩
    · rw [haccounts, Table.get?_insert] at hfound
      split at hfound
      · obtain rfl := Option.some.inj hfound
        have habove := h.above user.username old hold
        rwa [hid] at habove
      · exact h.above name account hfound
    · rw [hsame] at hfound
      exact h.above name account hfound

/-- The number of a user who is created is the counter. -/
theorem Bounded.toNat_next (h : s.Bounded) : (UInt64.ofNat s.nextId).toNat = s.nextId :=
  UInt64.toNat_ofNat_of_lt h.word

theorem Bounded.make (h : s.Bounded)
    (hrange : ∀ number ∈ s.given? change, number + 1 < UInt64.size) :
    (s.make change).2.Bounded := by
  cases change with
  | insert now id username password => exact h.insert (hrange _ rfl)
  | create now username password =>
    have hspent : s.nextId + 1 < UInt64.size := hrange _ rfl
    have hmoved : Bounded { s with nextId := s.nextId + 1 } :=
      ⟨hspent, fun name account hfound => Nat.lt_succ_of_lt (h.above name account hfound)⟩
    apply hmoved.insert
    rw [h.toNat_next]
    exact hspent
  | update user => exact h.update user

theorem Bounded.after (h : s.Bounded) (hrange : s.InRange changes) : (s.after changes).Bounded := by
  induction changes generalizing s with
  | nil => exact h
  | cons change changes ih => exact ih (h.make hrange.1) hrange.2

/-! ## The numbers of created users -/

/-- The number that a change has created a user under. -/
def createdBy (s : UserStore) : UserChange → Option UserId
  | .create now username password =>
    (s.make (.create now username password)).1.toOption.map User.id
  | _ => none

/-- The numbers that some changes have created users under, the first one first. -/
def createdIds : UserStore → List UserChange → List UserId
  | _, [] => []
  | s, change :: changes => (s.createdBy change).toList ++ createdIds (s.make change).2 changes

theorem nextId_le_insert (s : UserStore) (now : Instant) (id : UserId)
    (username password : String) : s.nextId ≤ (s.insert now id username password).2.nextId := by
  rcases s.insert_cases now id username password with ⟨_, -, -, -, -, hnext⟩ | ⟨-, -, hnext, -⟩
  · omega
  · omega

/-- No change takes back a number, and one that creates a user moves the counter on. -/
theorem nextId_make (s : UserStore) (change : UserChange) :
    s.nextId ≤ (s.make change).2.nextId ∧
      ∀ id ∈ s.createdBy change, id = ⟨UInt64.ofNat s.nextId⟩ ∧
        s.nextId < (s.make change).2.nextId := by
  cases change with
  | insert now id username password =>
    exact ⟨s.nextId_le_insert now id username password, by simp [createdBy]⟩
  | create now username password =>
    have hmoved : s.nextId + 1 ≤ (s.make (.create now username password)).2.nextId :=
      nextId_le_insert { s with nextId := s.nextId + 1 } now ⟨UInt64.ofNat s.nextId⟩ username
        password
    refine ⟨by omega, fun id hid => ⟨?_, by omega⟩⟩
    rcases s.create_cases now username password with ⟨_, -, -, hdone, -⟩ | ⟨⟨fault, hrefused⟩, -⟩
    · rw [createdBy, hdone] at hid
      exact (Option.some.inj hid).symm
    · rw [createdBy, hrefused] at hid
      cases hid
  | update user => exact ⟨Nat.le_of_eq (s.nextId_update user).symm, by simp [createdBy]⟩

/-- No user is created under a number below the counter. -/
theorem nextId_le_createdIds (h : s.Bounded) (hrange : s.InRange changes) :
    ∀ id ∈ s.createdIds changes, s.nextId ≤ id.number.toNat := by
  induction changes generalizing s with
  | nil =>
    intro id hid
    cases hid
  | cons change changes ih =>
    intro id hid
    have hnext := s.nextId_make change
    rcases List.mem_append.1 hid with hnow | hlater
    · obtain ⟨rfl, -⟩ := hnext.2 id (Option.mem_toList.1 hnow)
      exact Nat.le_of_eq h.toNat_next.symm
    · exact Nat.le_trans hnext.1 (ih (h.make hrange.1) hrange.2 id hlater)

/-- Users are created under greater and greater numbers. -/
theorem createdIds_increase (h : s.Bounded) (hrange : s.InRange changes) :
    (s.createdIds changes).Pairwise fun earlier later => earlier.number < later.number := by
  induction changes generalizing s with
  | nil => exact List.Pairwise.nil
  | cons change changes ih =>
    have hbounded := h.make hrange.1
    show List.Pairwise _ ((s.createdBy change).toList ++ createdIds _ changes)
    cases hnow : s.createdBy change with
    | none => exact ih hbounded hrange.2
    | some id =>
      obtain ⟨rfl, hmoved⟩ := (s.nextId_make change).2 id hnow
      apply List.Pairwise.cons
      · intro later hlater
        have hle := nextId_le_createdIds hbounded hrange.2 later hlater
        rw [UInt64.lt_iff_toNat_lt, h.toNat_next]
        omega
      · exact ih hbounded hrange.2

/-! ## Users who are created -/

theorem hasher_insert (s : UserStore) (now : Instant) (id : UserId) (username password : String) :
    (s.insert now id username password).2.hasher = s.hasher := by
  unfold insert
  split
  · rfl
  · dsimp only
    split <;> rfl

theorem hasher_update (s : UserStore) (user : User) : (s.update user).2.hasher = s.hasher := by
  unfold update
  split
  · split <;> rfl
  · rfl

/-- No change is made to how passwords are hashed. -/
theorem hasher_make (s : UserStore) (change : UserChange) :
    (s.make change).2.hasher = s.hasher := by
  cases change with
  | insert now id username password => exact s.hasher_insert now id username password
  | create now username password => exact hasher_insert { s with nextId := s.nextId + 1 } now _ _ _
  | update user => exact s.hasher_update user

theorem hasher_after (s : UserStore) (changes : List UserChange) :
    (s.after changes).hasher = s.hasher := by
  induction changes generalizing s with
  | nil => rfl
  | cons change changes ih => exact (ih (s.make change).2).trans (s.hasher_make change)

/-- A user who is created is kept, under a number above all others on record. -/
theorem Bounded.of_created (h : s.Bounded)
    (hdone : (s.make (.create now username password)).1 = .ok user) :
    (∀ name account, s.accounts.get? name = some account →
      account.user.id.number < user.id.number) ∧
    ((s.make (.create now username password)).2.accounts.get? username).map Account.user =
      some user := by
  rcases s.create_cases now username password with
    ⟨passwordHash, -, -, hmade, haccounts⟩ | ⟨⟨fault, hrefused⟩, -⟩
  · obtain rfl := Except.ok.inj (hmade.symm.trans hdone)
    constructor
    · intro name account hfound
      rw [UInt64.lt_iff_toNat_lt]
      show _ < (UInt64.ofNat s.nextId).toNat
      rw [h.toNat_next]
      exact h.above name account hfound
    · rw [haccounts, Table.get?_insert_self]
      rfl
  · rw [hrefused] at hdone
    cases hdone

/-- If passwords can be hashed, a user is created exactly if the name is free. -/
theorem created_iff (hhash : ∀ number word, ∃ hash, s.hasher.hash number word = .ok hash) :
    (∃ user, (s.make (.create now username password)).1 = .ok user) ↔
      s.accounts.get? username = none := by
  obtain ⟨hash, hok⟩ := hhash s.hashes password
  rcases s.create_cases now username password with
    ⟨passwordHash, -, hfree, hmade, -⟩ | ⟨⟨fault, hrefused⟩, hwhy⟩
  · exact ⟨fun _ => hfree, fun _ => ⟨_, hmade⟩⟩
  · constructor
    · rintro ⟨user, hdone⟩
      rw [hrefused] at hdone
      cases hdone
    · intro hfree
      obtain ⟨broken, hbroken⟩ := hwhy hfree
      rw [hok] at hbroken
      cases hbroken

/-- After any changes whose numbers are in range the counter exceeds every number on record, no two
users have one name, and users have been created under greater and greater numbers.  Whoever is
created next is kept under a number above all on record, which happens, if passwords can be hashed,
exactly if the name is free.  Writing a user keeps what number, name and password every name stands
for, and a change that is refused leaves every user as is. -/
theorem created_users_fresh (hasher : Hasher) (changes : List UserChange)
    (hrange : (empty hasher).InRange changes) :
    let s := (empty hasher).after changes
    s.Bounded ∧
    (s.accounts.entries.map fun entry => entry.2.user.username).Nodup ∧
    ((empty hasher).createdIds changes).Pairwise
      (fun earlier later => earlier.number < later.number) ∧
    (∀ now username password user,
      (s.make (.create now username password)).1 = .ok user →
      (∀ name account, s.accounts.get? name = some account →
        account.user.id.number < user.id.number) ∧
      ((s.make (.create now username password)).2.accounts.get? username).map Account.user =
        some user) ∧
    ((∀ number word, ∃ hash, hasher.hash number word = .ok hash) →
      ∀ now username password,
        (∃ user, (s.make (.create now username password)).1 = .ok user) ↔
          s.accounts.get? username = none) ∧
    (∀ user name,
      ((s.update user).2.accounts.get? name).map
          (fun account => (account.user.id, account.user.username, account.passwordHash)) =
        (s.accounts.get? name).map
          (fun account => (account.user.id, account.user.username, account.passwordHash))) ∧
    ∀ change fault, (s.make change).1 = .error fault →
      (s.make change).2.accounts = s.accounts := by
  intro s
  have hempty : (empty hasher).Bounded := bounded_empty hasher
  have hbounded : s.Bounded := hempty.after hrange
  have hkeyed : s.Keyed := ((Reached.empty hasher).after changes).keyed
  have hhasher : s.hasher = hasher := hasher_after (empty hasher) changes
  refine ⟨hbounded, hkeyed.usernames_nodup, createdIds_increase hempty hrange,
    fun _ _ _ _ hdone => hbounded.of_created hdone, ?_, fun user name =>
    identity_update hkeyed user name, fun _ _ hrefused => accounts_of_refused hrefused⟩
  intro hhash now username password
  apply created_iff
  rwa [hhasher]

/-- A hasher that keeps passwords as they are. -/
def openHasher : Hasher where
  hash _ password := .ok password
  verify password hash := .ok (password = hash)

/-- One user is added and two are created, and one more cannot be, for the name is taken. -/
def demoChanges : List UserChange :=
  [.insert .epoch ⟨5⟩ "ann" "one", .create .epoch "bob" "two", .create .epoch "ann" "three",
    .create .epoch "cleo" "four"]

/-- The number spent in vain is left out, and the next user is created above all. -/
theorem created_users_fresh_demo :
    (empty openHasher).createdIds demoChanges = [⟨6⟩, ⟨8⟩] ∧
    ((empty openHasher).after demoChanges).Bounded ∧
    ∃ user, (((empty openHasher).after demoChanges).make (.create .epoch "dan" "five")).1 =
        .ok user ∧
      ∀ name account, ((empty openHasher).after demoChanges).accounts.get? name = some account →
        account.user.id.number < user.id.number := by
  obtain ⟨hbounded, -, -, hcreated, hfree, -⟩ :=
    created_users_fresh openHasher demoChanges (by decide)
  obtain ⟨user, hdone⟩ :=
    (hfree (fun _ word => ⟨word, rfl⟩) .epoch "dan" "five").2 (by decide)
  exact ⟨by decide, hbounded, user, hdone, (hcreated _ _ _ user hdone).1⟩

end UserStore

end Bearer
