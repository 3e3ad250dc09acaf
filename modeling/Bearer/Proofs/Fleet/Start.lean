/-
  Fleets at their start.

  At the start of a run, users may be known, but nothing has been issued,
  revoked, remembered or cached.

  Main statements: `fresh_start` and `Fresh.holds`.  The fleet `demo` is there to
  try statements on.
-/
import Bearer.Proofs.Fleet.Caches
import Mathlib.Control.Monad.Basic

namespace Bearer.Fleet

variable {n : Nat} {f : MemoryFleet n}

/-- Whether nothing has been issued, revoked, remembered or cached. -/
structure Fresh (f : MemoryFleet n) : Prop where
  minted : f.minted = 0
  sessions : f.origin.sessions = .empty
  revocations : f.origin.revocations = .empty
  shared : f.shared.entries = Table.empty
  near : ∀ j : Fin n, (f.cache j).near.entries = Table.empty
  revoked : ∀ j : Fin n, f.revoked j = .empty

/-- Empty caches keep any rule. -/
theorem Fresh.holds (h : f.Fresh) (rule : EntryRule) (j : Fin n) : f.Holds rule j := by
  refine ⟨fun _ key e he => ?_, fun key e he => ?_⟩
  · rw [h.shared, Table.get?_empty] at he
    cases he
  · rw [h.near, Table.get?_empty] at he
    cases he

/-- Without sessions, none is kept under a wrong user. -/
theorem Fresh.coherent (h : f.Fresh) : f.origin.sessions.Coherent := by
  rw [h.sessions]
  exact SessionStore.coherent_empty

theorem Fresh.keyed (h : f.Fresh) : f.origin.revocations.Keyed := by
  rw [h.revocations]
  exact fun _ _ hrow => by cases hrow

/-- Instances with the same settings that know some users. -/
def start (n : Nat) (wall : Instant) (users : UserStore) (config : CacheConfig) (issuer : Issuer) :
    MemoryFleet n where
  wall
  clock := ⟨0⟩
  ids := .numbered
  minted := 0
  origin := ⟨.empty, .empty, users⟩
  shared := .empty
  instances := Vector.replicate n (.new ⟨0⟩ config true false issuer)
  janitors := []

theorem get_start (n : Nat) (wall : Instant) (users : UserStore) (config : CacheConfig)
    (issuer : Issuer) (j : Fin n) :
    (start n wall users config issuer).instances.get j = .new ⟨0⟩ config true false issuer :=
  Vector.getElem_replicate j.isLt

theorem fresh_start (n : Nat) (wall : Instant) (users : UserStore) (config : CacheConfig)
    (issuer : Issuer) : (start n wall users config issuer).Fresh := by
  refine ⟨rfl, rfl, rfl, rfl, fun j => ?_, fun j => ?_⟩
  · rw [cache, get_start]
    rfl
  · rw [revoked, get_start]
    rfl

theorem issuer_start (n : Nat) (wall : Instant) (users : UserStore) (config : CacheConfig)
    (issuer : Issuer) (j : Fin n) :
    (start n wall users config issuer).issuer j = issuer := by
  rw [Fleet.issuer, get_start]
  rfl

/-! ## A fleet to try -/

/-- A hasher that keeps passwords as they are. -/
def plainHasher : Hasher where
  hash _ password := .ok password
  verify password hash := .ok (password = hash)

/-- An issuer of access tokens that live for ten seconds and refresh tokens that live for sixty. -/
def demoIssuer : Issuer where
  config :=
    { issuer := "demo"
      audience := "demo"
      accessLifetime := .ofSeconds 10
      refreshLifetime := .ofSeconds 60
      signingKey := [1] }
  reports := true

/-- A user to try. -/
def demoUser : UserId := ⟨42⟩

/-- A minute after the start. -/
def demoMinute : Instant := { second := 60, nanos := 0 }

/-- The user's session, which lasts for a minute. -/
def demoSession : Session :=
  { id := 1
    user := demoUser
    refreshToken := "new"
    expiresAt := demoMinute
    createdAt := .epoch }

namespace Demo

/-- One reason for all demos why the instances of a fleet of two can be numbered by literals; zero is
that of `Fin`, whatever else is known of numbers. -/
scoped instance neZero_two : @NeZero Nat Zero.ofOfNat0 2 := ⟨by decide⟩

end Demo

/-- Two instances that know one user. -/
def demo : MemoryFleet 2 :=
  let users := ((UserStore.empty plainHasher).insert .epoch demoUser "demo" "demo").2
  start 2 .epoch users .default demoIssuer

/-- The user logs in at one of the instances. -/
def demoLogin (i : Fin 2) : Move 2 := .execute i (.login "demo" "demo")

/-- A token of one kind and number that the demo issuer mints for the user. -/
def demoToken (kind : TokenKind) (issuedAt expiresAt : Instant) (number : Nat) : String :=
  demoIssuer.config.mint
    (demoIssuer.config.payload kind demoUser "demo" issuedAt expiresAt (Token.id number))

/-- What the token states. -/
def demoClaims (kind : TokenKind) (issuedAt expiresAt : Instant) (number : Nat) : Claims :=
  { user := demoUser, username := "demo", tokenId := Token.id number, kind, issuedAt, expiresAt }

/-- Every demo instance can read the demo tokens of whole milliseconds and seconds. -/
theorem peek_demoToken (kind : TokenKind) {issuedAt expiresAt : Instant}
    (hissued : Instant.ofMillis? issuedAt.millis = some issuedAt)
    (hexpires : Instant.ofSeconds? expiresAt.second = some expiresAt)
    (hpos : 0 ≤ expiresAt.second) (number : Nat) (j : Fin 2) :
    (demo.issuer j).config.peek (demoToken kind issuedAt expiresAt number) =
      .ok (demoClaims kind issuedAt expiresAt number) := by
  rw [demo, issuer_start]
  exact TokenConfig.peek_mint _ kind demoUser "demo" _ hissued hexpires hpos

/-- The refresh token that the demo user gets at a first login. -/
def demoRefreshToken : String := demoToken .refresh .epoch demoMinute 2

/-- What it states. -/
def demoRefreshClaims : Claims := demoClaims .refresh .epoch demoMinute 2

end Bearer.Fleet
