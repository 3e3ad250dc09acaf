/-
  The stores of record together.

  Sessions, revocations and users are reached through one interface, so that a
  fleet of instances can share them and different backends can answer.  Beside
  the stores kept in memory there is a guard that can make the calls to one kind
  of record fail before they reach it.
-/
import Bearer.Store.Revocation
import Bearer.Store.Session
import Bearer.Store.User

namespace Bearer

/-- A backend of the stores of record: it answers calls made at a time. -/
class Origin (σ : Type) where
  session : (c : SessionCall) → Instant → σ → c.Reply × σ
  revocation : (c : RevocationCall) → Instant → σ → c.Reply × σ
  user : (c : UserCall) → Instant → σ → c.Reply × σ

/-- The stores of record kept in memory. -/
structure MemoryOrigin where
  sessions : SessionStore
  revocations : RevocationStore
  users : UserStore

namespace MemoryOrigin

/-- Nothing is on record. -/
def empty (hasher : Hasher) : MemoryOrigin := ⟨.empty, .empty, .empty hasher⟩

instance : Origin MemoryOrigin where
  session c _ s :=
    let (reply, sessions) := s.sessions.perform c
    (reply, { s with sessions })
  revocation c now s :=
    let (reply, revocations) := s.revocations.perform now c
    (reply, { s with revocations })
  user c now s :=
    let (reply, users) := s.users.perform now c
    (reply, { s with users })

end MemoryOrigin

/-- Stores of record that can be switched to fail. -/
structure Guarded (σ : Type) where
  inner : σ
  sessionsFail : Bool
  revocationsFail : Bool
  /-- Whether writing users fails; verifying passwords never does. -/
  usersFail : Bool

namespace Guarded

/-- The stores without any failure switched on. -/
def working {σ : Type} (inner : σ) : Guarded σ := ⟨inner, false, false, false⟩

/-- Whether a call writes users. -/
def writes : UserCall → Bool
  | .verify .. => false
  | .update _ | .create .. => true

instance {σ : Type} [Origin σ] : Origin (Guarded σ) where
  session c now s :=
    if s.sessionsFail then (.error (.persistence .injected), s)
    else
      let (reply, inner) := Origin.session c now s.inner
      (reply, { s with inner })
  revocation c now s :=
    if s.revocationsFail then (.error (.persistence .injected), s)
    else
      let (reply, inner) := Origin.revocation c now s.inner
      (reply, { s with inner })
  user c now s :=
    if s.usersFail && writes c then (.error (.persistence .injected), s)
    else
      let (reply, inner) := Origin.user c now s.inner
      (reply, { s with inner })

end Guarded

end Bearer
