/-
  Users and their numbers.
-/
import Bearer.Text.Decimal
import Bearer.Time.Instant

namespace Bearer

/-- The number of a user. -/
structure UserId where
  number : UInt64
  deriving DecidableEq, Repr, Inhabited

namespace UserId

/-- The number in decimal. -/
def text (id : UserId) : String := Text.Decimal.natText id.number.toNat

/-- Reads the decimal form, which may have a plus sign and leading zeros. -/
def read (s : String) : Except Text.Decimal.Fault UserId :=
  (Text.Decimal.readWord s).map fun n => ⟨n⟩

/-- What is written reads back. -/
theorem read_text (id : UserId) : read id.text = .ok id := by
  have h : id.number.toNat < UInt64.size := id.number.toNat_lt
  have hne : Text.Decimal.writeNat id.number.toNat ≠ [] := by
    simp [Text.Decimal.writeNat, Nat.toDigits_ne_nil]
  have hd := Text.Decimal.readDigits_writeNat h
  unfold read Text.Decimal.readWord text Text.Decimal.natText
  rw [String.toList_ofList]
  generalize Text.Decimal.writeNat id.number.toNat = cs at *
  have hread : Text.Decimal.readNat UInt64.size cs = .ok id.number.toNat := by
    unfold Text.Decimal.readNat
    split
    · exact absurd rfl hne
    · simp [Text.Decimal.readDigits, Text.Decimal.digit?] at hd
    · simp [Text.Decimal.readDigits, Text.Decimal.digit?] at hd
    · exact hd
  rw [hread]
  simp [Except.map]

end UserId

/-- A user. -/
structure User where
  id : UserId
  username : String
  isActive : Bool
  lastLoginAt : Option Instant
  createdAt : Instant
  deriving DecidableEq, Repr

end Bearer
