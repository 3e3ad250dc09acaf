/-
  The revocations that one issuer remembers.

  An issuer remembers the tokens revoked through it, each until its expiry.
  Once many are remembered, those that have expired are forgotten before the
  next one is added; that never changes an answer.
-/
import Bearer.Table
import Bearer.Time.Instant

namespace Bearer

/-- The tokens revoked through one issuer, each with its expiry. -/
structure RevokedTokens where
  entries : Table String Instant
  deriving Inhabited

namespace RevokedTokens

/-- The number of entries from which on expired ones are forgotten. -/
def pruneAt : Nat := 4096

/-- No token is revoked. -/
def empty : RevokedTokens := ⟨Table.empty⟩

/-- Forgets the entries that have expired by `now`, once there are many. -/
def prune (r : RevokedTokens) (now : Instant) : RevokedTokens :=
  -- Looking through all entries is worth it only once there are many.
  if pruneAt ≤ r.entries.size then ⟨r.entries.filter fun _ expiresAt => now < expiresAt⟩
  else r

/-- Remembers that a token is revoked until it expires. -/
def remember (r : RevokedTokens) (now : Instant) (tokenId : String) (expiresAt : Instant) :
    RevokedTokens :=
  ⟨(r.prune now).entries.insert tokenId expiresAt⟩

/-- Whether a token is remembered as revoked at `now`. -/
def contains (r : RevokedTokens) (now : Instant) (tokenId : String) : Bool :=
  (r.entries.get? tokenId).any fun expiresAt => now < expiresAt

@[simp] theorem contains_empty (now : Instant) (tokenId : String) :
    empty.contains now tokenId = false := rfl

/-- Pruning changes no answer from then on. -/
theorem contains_prune (r : RevokedTokens) {now later : Instant} (h : now ≤ later)
    (tokenId : String) : (r.prune now).contains later tokenId = r.contains later tokenId := by
  unfold prune
  split
  · simp only [contains, Table.get?_filter]
    cases r.entries.get? tokenId with
    | none => rfl
    | some t =>
      by_cases hlive : now < t
      · simp [Option.filter, hlive]
      · have hended : ¬ later < t := by
          simp only [Instant.le_def, Instant.lt_def] at *
          omega
        simp [Option.filter, hlive, hended]
  · rfl

theorem contains_remember (r : RevokedTokens) {now later : Instant} (h : now ≤ later)
    (tokenId other : String) (expiresAt : Instant) :
    (r.remember now tokenId expiresAt).contains later other =
      if other = tokenId then decide (later < expiresAt) else r.contains later other := by
  rw [← r.contains_prune h]
  simp only [contains, remember, Table.get?_insert]
  split <;> simp

end RevokedTokens

end Bearer
