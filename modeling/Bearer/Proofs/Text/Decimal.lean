/-
  The digits of written numbers.

  Readers look at written numbers from the outside: that they start with a
  digit, consist of digits, start with zero only for zero itself, and are no
  longer than the number needs.

  Main statements: `writeNat_pos`, `isDigit_writeNat` and `lt_pow_length_writeNat`.
-/
import Bearer.Text.Decimal
import Mathlib.Algebra.Group.Nat.Defs

namespace Bearer.Text.Decimal

theorem isDigit_digitChar {d : Nat} (h : d < 10) : isDigit (Nat.digitChar d) = true := by
  simp [isDigit, digit?_digitChar h]

theorem writeNat_of_lt {n : Nat} (h : n < 10) : writeNat n = [Nat.digitChar n] := by
  rw [writeNat, Nat.toDigits_of_lt_base h]

/-- The last digit split off. -/
theorem writeNat_of_le {n : Nat} (h : 10 ≤ n) :
    writeNat n = writeNat (n / 10) ++ [Nat.digitChar (n % 10)] := by
  rw [writeNat, writeNat, Nat.toDigits_of_base_le (by decide) h]

/-- A positive number is written as digits of which the first is not zero. -/
theorem writeNat_pos {n : Nat} (h : 0 < n) :
    ∃ d ds, writeNat n = Nat.digitChar d :: ds ∧ 0 < d ∧ d < 10 ∧ ∀ c ∈ ds, isDigit c = true := by
  -- By induction on the number without its last digit, which has the same first digit.
  induction n using Nat.strongRecOn with
  | ind n ih =>
    by_cases hn : n < 10
    · exact ⟨n, [], writeNat_of_lt hn, h, hn, by simp⟩
    · obtain ⟨d, ds, heq, hpos, hlt, hds⟩ := ih (n / 10) (Nat.div_lt_self h (by decide)) (by omega)
      have hlast : n % 10 < 10 := Nat.mod_lt _ (by decide)
      refine ⟨d, ds ++ [Nat.digitChar (n % 10)], ?_, hpos, hlt, ?_⟩
      · rw [writeNat_of_le (by omega), heq, List.cons_append]
      · intro c hc
        rcases List.mem_append.1 hc with hc | hc
        · exact hds c hc
        · rw [List.mem_singleton.1 hc]
          exact isDigit_digitChar hlast

theorem writeNat_eq_cons (n : Nat) :
    ∃ d ds, writeNat n = Nat.digitChar d :: ds ∧ d < 10 ∧ ∀ c ∈ ds, isDigit c = true := by
  rcases Nat.eq_zero_or_pos n with rfl | hpos
  · exact ⟨0, [], rfl, by decide, by simp⟩
  · obtain ⟨d, ds, heq, -, hlt, hds⟩ := writeNat_pos hpos
    exact ⟨d, ds, heq, hlt, hds⟩

theorem isDigit_writeNat (n : Nat) : ∀ c ∈ writeNat n, isDigit c = true := by
  obtain ⟨d, ds, heq, hlt, hds⟩ := writeNat_eq_cons n
  intro c hc
  rw [heq] at hc
  rcases List.mem_cons.1 hc with rfl | hc
  · exact isDigit_digitChar hlt
  · exact hds c hc

theorem digitChar_ne_minus {d : Nat} (h : d < 10) : Nat.digitChar d ≠ '-' := by
  -- One look at each of the ten digits.
  have : ∀ d : Fin 10, Nat.digitChar d.val ≠ '-' := by decide
  exact this ⟨d, h⟩

theorem length_writeNat_pos (n : Nat) : 0 < (writeNat n).length := Nat.length_toDigits_pos

theorem length_writeNat_le {n k : Nat} (hk : 0 < k) (h : n < 10 ^ k) :
    (writeNat n).length ≤ k := (Nat.length_toDigits_le_iff (by decide) hk).2 h

theorem lt_pow_length_writeNat (n : Nat) : n < 10 ^ (writeNat n).length :=
  (Nat.length_toDigits_le_iff (by decide) (length_writeNat_pos n)).1 (Nat.le_refl _)

/-! ## Padded numbers -/

theorem isDigit_writePadded (width n : Nat) : ∀ c ∈ writePadded width n, isDigit c = true := by
  intro c hc
  rcases List.mem_append.1 hc with hc | hc
  · rw [List.eq_of_mem_replicate hc]
    rfl
  · exact isDigit_writeNat n c hc

theorem length_writePadded {width n : Nat} (hw : 0 < width) (h : n < 10 ^ width) :
    (writePadded width n).length = width := by
  have hle := length_writeNat_le hw h
  simp only [writePadded, List.length_append, List.length_replicate]
  omega

end Bearer.Text.Decimal
