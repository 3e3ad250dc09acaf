/-
  What the users of record are.

  In a store that has come about by adding users and by calls, every user is
  kept under the user's own name.  A user is written over the one of the same
  name and number, or not at all.

  Main statements: `Reached.keyed` and `update_cases`.
-/
import Bearer.Store.User

namespace Bearer.UserStore

variable {s : UserStore} {name : String} {account : Account} {user : User}

/-- Whether a store has come about by adding users and by calls. -/
inductive Reached : UserStore → Prop where
  | empty (hasher : Hasher) : Reached (.empty hasher)
  | insert {s : UserStore} (h : Reached s) (now : Instant) (id : UserId)
      (username password : String) : Reached (s.insert now id username password).2
  | perform {s : UserStore} (h : Reached s) (now : Instant) (c : UserCall) :
      Reached (s.perform now c).2

/-- Whether every user is kept under the user's name. -/
def Keyed (s : UserStore) : Prop :=
  ∀ name account, s.accounts.get? name = some account → account.user.username = name

theorem keyed_empty (hasher : Hasher) : (empty hasher).Keyed := by
  intro name account h
  cases h

/-- Writing a user under the user's name keeps all users under theirs. -/
theorem Keyed.write (h : s.Keyed) {s' : UserStore}
    (hs' : s'.accounts = s.accounts.insert name account) (hname : account.user.username = name) :
    s'.Keyed := by
  intro other found hfound
  rw [hs', Table.get?_insert] at hfound
  split at hfound
  · next heq =>
    obtain rfl := Option.some.inj hfound
    exact hname.trans heq.symm
  · exact h other found hfound

theorem Keyed.insert (h : s.Keyed) (now : Instant) (id : UserId) (username password : String) :
    (s.insert now id username password).2.Keyed := by
  unfold UserStore.insert
  split
  · exact h
  · dsimp only
    split
    · exact h
    · exact h.write rfl rfl

/-- A user is written over the one of the same name and number, or nothing changes. -/
theorem update_cases (s : UserStore) (user : User) :
    (∃ account, s.accounts.get? user.username = some account ∧ account.user.id = user.id ∧
      (s.update user).1 = .ok () ∧
      (s.update user).2.accounts = s.accounts.insert user.username { account with user }) ∨
    (s.update user).1 = .error .userNotFound ∧ (s.update user).2 = s := by
  unfold update
  split
  · next account haccount =>
    split
    · next hid => exact Or.inl ⟨account, haccount, hid, rfl, rfl⟩
    · exact Or.inr ⟨rfl, rfl⟩
  · exact Or.inr ⟨rfl, rfl⟩

/-- Writing a user changes nothing under another name. -/
theorem get?_update_of_ne (hne : name ≠ user.username) :
    (s.update user).2.accounts.get? name = s.accounts.get? name := by
  rcases s.update_cases user with ⟨account, -, -, -, haccounts⟩ | ⟨-, hsame⟩
  · rw [haccounts, Table.get?_insert, if_neg hne]
  · rw [hsame]

/-- Writing a user leaves the accounts of all others as they are. -/
theorem get?_update_iff (hid : account.user.id ≠ user.id) :
    (s.update user).2.accounts.get? name = some account ↔ s.accounts.get? name = some account := by
  rcases s.update_cases user with ⟨old, hold, hsame, -, haccounts⟩ | ⟨-, hsame⟩
  · rw [haccounts, Table.get?_insert]
    split
    · next heq =>
      rw [heq, hold]
      constructor
      · intro h
        obtain rfl := Option.some.inj h
        exact absurd rfl hid
      · intro h
        obtain rfl := Option.some.inj h
        exact absurd hsame hid
    · rfl
  · rw [hsame]

theorem Keyed.update (h : s.Keyed) (user : User) : (s.update user).2.Keyed := by
  rcases s.update_cases user with ⟨account, -, -, -, haccounts⟩ | ⟨-, hsame⟩
  · exact h.write haccounts rfl
  · rw [hsame]
    exact h

theorem Keyed.perform (h : s.Keyed) (now : Instant) (c : UserCall) : (s.perform now c).2.Keyed := by
  cases c with
  | verify username password => exact h
  | update user => exact h.update user
  | create username password =>
    have hcounted : Keyed { s with nextId := s.nextId + 1 } := h
    exact hcounted.insert now _ username password

theorem Reached.keyed (h : s.Reached) : s.Keyed := by
  induction h with
  | empty hasher => exact keyed_empty hasher
  | insert _ now id username password ih => exact ih.insert now id username password
  | perform _ now c ih => exact ih.perform now c

/-- Whoever is let in is the user of that name on record. -/
theorem stored_of_verify {username password : String} (h : s.verify username password = .ok user) :
    ∃ account, s.accounts.get? username = some account ∧ account.user = user := by
  unfold verify at h
  cases hfound : s.accounts.get? username with
  | none =>
    rw [hfound] at h
    cases h
  | some account =>
    rw [hfound] at h
    refine ⟨account, rfl, ?_⟩
    dsimp only at h
    split at h
    · cases h
    · split at h <;> first | exact Except.ok.inj h | cases h

end Bearer.UserStore
