/-
  Encoded text decodes to itself.

  Each character takes one to four bytes.  The decoder looks at the first byte
  for their number and checks the others, so the round trip is one case per
  number of bytes; the bounds of each case are those of the encoder's tests.

  Main statement: `decode_encode`.
-/
import Bearer.Text.Utf8

namespace Bearer.Text.Utf8

theorem toNat_ofNat_of_lt {n : Nat} (h : n < 256) : (UInt8.ofNat n).toNat = n := by
  simp [Nat.mod_eq_of_lt h]

/-- A byte that goes on with a character carries the number below 64 that it was made of. -/
theorem tail_ofNat {k : Nat} (h : k < 64) :
    isTail (UInt8.ofNat (0x80 + k)) = true ∧ low (UInt8.ofNat (0x80 + k)) = k := by
  have hn : (UInt8.ofNat (0x80 + k)).toNat = 0x80 + k := toNat_ofNat_of_lt (by omega)
  constructor
  · simp only [isTail, Bool.and_eq_true, decide_eq_true_eq, UInt8.le_iff_toNat_le,
      UInt8.lt_iff_toNat_lt, hn]
    exact ⟨Nat.le_add_right _ _, Nat.add_lt_add_left h 0x80⟩
  · simp only [low, hn]
    omega

/-- The numbers of characters: below the surrogates, or past them and in range. -/
theorem toNat_range (c : Char) :
    c.toNat < 0xD800 ∨ 0xE000 ≤ c.toNat ∧ c.toNat < 0x110000 := by
  have h := c.valid
  simp only [UInt32.isValidChar, Nat.isValidChar] at h
  have hn : c.toNat = c.val.toNat := rfl
  omega

theorem char?_encode_one {c : Char} (h : c.toNat < 0x80) (rest : List UInt8) :
    char? (UInt8.ofNat c.toNat) rest = some (c, 0) := by
  have ha : (UInt8.ofNat c.toNat).toNat = c.toNat := toNat_ofNat_of_lt (by omega)
  have hlt : UInt8.ofNat c.toNat < 0x80 := by
    rw [UInt8.lt_iff_toNat_lt, ha]
    exact h
  rw [char?.eq_def, if_pos hlt, ha, Char.ofNat_toNat]

theorem char?_encode_two {c : Char} (h : 0x80 ≤ c.toNat) (h' : c.toNat < 0x800)
    (rest : List UInt8) :
    char? (UInt8.ofNat (0xC0 + c.toNat / 64)) (UInt8.ofNat (0x80 + c.toNat % 64) :: rest) =
      some (c, 1) := by
  have ha : (UInt8.ofNat (0xC0 + c.toNat / 64)).toNat = 0xC0 + c.toNat / 64 :=
    toNat_ofNat_of_lt (by omega)
  obtain ⟨hb, hlow⟩ := tail_ofNat (k := c.toNat % 64) (by omega)
  have hc : (0xC0 + c.toNat / 64) % 32 * 64 + c.toNat % 64 = c.toNat := by omega
  -- The first byte says that one more belongs to the character.
  simp only [char?, UInt8.lt_iff_toNat_lt, UInt8.le_iff_toNat_le, ha, Bool.and_eq_true,
    decide_eq_true_eq, UInt8.reduceToNat]
  rw [if_neg (by omega), if_pos (by omega), hb, hlow, if_pos rfl, hc, Char.ofNat_toNat]

theorem char?_encode_three {c : Char} (h : 0x800 ≤ c.toNat) (h' : c.toNat < 0x10000)
    (rest : List UInt8) :
    char? (UInt8.ofNat (0xE0 + c.toNat / 4096))
      (UInt8.ofNat (0x80 + c.toNat / 64 % 64) :: UInt8.ofNat (0x80 + c.toNat % 64) :: rest) =
      some (c, 2) := by
  have ha : (UInt8.ofNat (0xE0 + c.toNat / 4096)).toNat = 0xE0 + c.toNat / 4096 :=
    toNat_ofNat_of_lt (by omega)
  obtain ⟨hb, hlowb⟩ := tail_ofNat (k := c.toNat / 64 % 64) (by omega)
  obtain ⟨hd, hlowd⟩ := tail_ofNat (k := c.toNat % 64) (by omega)
  have hc : ((0xE0 + c.toNat / 4096) % 16 * 64 + c.toNat / 64 % 64) * 64 + c.toNat % 64 =
      c.toNat := by omega
  have hrange := toNat_range c
  simp only [char?, UInt8.lt_iff_toNat_lt, UInt8.le_iff_toNat_le, ha, Bool.and_eq_true,
    Bool.or_eq_true, decide_eq_true_eq, UInt8.reduceToNat, hb, hd, hlowb, hlowd, hc]
  -- No surrogate has been encoded, so the decoder's last test passes.
  rw [if_neg (by omega), if_neg (by omega), if_pos (by omega), if_pos ⟨⟨⟨trivial, trivial⟩, h⟩,
    by omega⟩, Char.ofNat_toNat]

theorem char?_encode_four {c : Char} (h : 0x10000 ≤ c.toNat) (rest : List UInt8) :
    char? (UInt8.ofNat (0xF0 + c.toNat / 262144))
      (UInt8.ofNat (0x80 + c.toNat / 4096 % 64) :: UInt8.ofNat (0x80 + c.toNat / 64 % 64) ::
        UInt8.ofNat (0x80 + c.toNat % 64) :: rest) = some (c, 3) := by
  have hrange := toNat_range c
  have ha : (UInt8.ofNat (0xF0 + c.toNat / 262144)).toNat = 0xF0 + c.toNat / 262144 :=
    toNat_ofNat_of_lt (by omega)
  obtain ⟨hb, hlowb⟩ := tail_ofNat (k := c.toNat / 4096 % 64) (by omega)
  obtain ⟨hd, hlowd⟩ := tail_ofNat (k := c.toNat / 64 % 64) (by omega)
  obtain ⟨he, hlowe⟩ := tail_ofNat (k := c.toNat % 64) (by omega)
  have hc : (((0xF0 + c.toNat / 262144) % 8 * 64 + c.toNat / 4096 % 64) * 64 +
      c.toNat / 64 % 64) * 64 + c.toNat % 64 = c.toNat := by omega
  simp only [char?, UInt8.lt_iff_toNat_lt, UInt8.le_iff_toNat_le, ha, Bool.and_eq_true,
    decide_eq_true_eq, UInt8.reduceToNat, hb, hd, he, hlowb, hlowd, hlowe, hc]
  -- The number is in range, so the decoder's last test passes.
  rw [if_neg (by omega), if_neg (by omega), if_neg (by omega), if_pos (by omega),
    if_pos ⟨⟨⟨⟨trivial, trivial⟩, trivial⟩, h⟩, by omega⟩, Char.ofNat_toNat]

/-- The bytes of a character decode to it, whatever follows them. -/
theorem decodeAfter_encodeChar (c : Char) (rest : List UInt8) :
    decodeAfter 0 (encodeChar c ++ rest) = some c :: decodeAfter 0 rest := by
  unfold encodeChar
  dsimp only
  split
  · next h =>
    rw [List.singleton_append, decodeAfter, char?_encode_one h]
  · split
    · next h h' =>
      rw [List.cons_append, List.singleton_append, decodeAfter,
        char?_encode_two (by omega) h']
      rfl
    · split
      · next h h' =>
        rw [List.cons_append, List.cons_append, List.singleton_append, decodeAfter,
          char?_encode_three (by omega) h']
        rfl
      · rw [List.cons_append, List.cons_append, List.cons_append, List.singleton_append,
          decodeAfter, char?_encode_four (by omega)]
        rfl

theorem decode_encode (s : List Char) : decode (encode s) = s.map some := by
  induction s with
  | nil => rfl
  | cons c s ih =>
    -- The bytes of the first character end where those of the rest begin.
    show decodeAfter 0 (encodeChar c ++ encode s) = some c :: s.map some
    rw [decodeAfter_encodeChar, ← ih]
    rfl

end Bearer.Text.Utf8
