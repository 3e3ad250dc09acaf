/-
  Base 64.

  Bytes in groups of three become four characters of an alphabet of 64.  Two
  alphabets are used here, which differ in their last two characters; neither
  form is padded.  The reader takes only what the writer produces: a last
  group of one character is refused, and so are unused bits that are not zero.

  Main statement: `decode_encode`, what is written reads back.
-/

namespace Bearer.Text.Base64

/-- An alphabet: its characters for 62 and 63.  The others are letters, then digits. -/
structure Alphabet where
  at62 : Char
  at63 : Char

/-- The alphabet for file names and URLs. -/
def urlSafe : Alphabet := ⟨'-', '_'⟩

/-- The common alphabet. -/
def standard : Alphabet := ⟨'+', '/'⟩

/-- The character for a number below 64. -/
def Alphabet.char (a : Alphabet) (n : Nat) : Char :=
  if n < 26 then Char.ofNat ('A'.toNat + n)
  else if n < 52 then Char.ofNat ('a'.toNat + (n - 26))
  else if n < 62 then Char.ofNat ('0'.toNat + (n - 52))
  else if n = 62 then a.at62
  else a.at63

/-- The number a character stands for. -/
def Alphabet.value? (a : Alphabet) (c : Char) : Option Nat :=
  if 'A' ≤ c ∧ c ≤ 'Z' then some (c.toNat - 'A'.toNat)
  else if 'a' ≤ c ∧ c ≤ 'z' then some (c.toNat - 'a'.toNat + 26)
  else if '0' ≤ c ∧ c ≤ '9' then some (c.toNat - '0'.toNat + 52)
  else if c = a.at62 then some 62
  else if c = a.at63 then some 63
  else none

/-- The written form of bytes. -/
def encode (a : Alphabet) : List UInt8 → List Char
  | [] => []
  | [x] =>
    let n := x.toNat
    [a.char (n / 4), a.char (n % 4 * 16)]
  | [x, y] =>
    let n := x.toNat * 256 + y.toNat
    [a.char (n / 1024), a.char (n / 16 % 64), a.char (n % 16 * 4)]
  | x :: y :: z :: rest =>
    let n := (x.toNat * 256 + y.toNat) * 256 + z.toNat
    a.char (n / 262144) :: a.char (n / 4096 % 64) :: a.char (n / 64 % 64) :: a.char (n % 64) ::
      encode a rest

/-- The bytes of a written form. -/
def decode (a : Alphabet) : List Char → Option (List UInt8)
  | [] => some []
  | [_] => none
  | [p, q] => do
    let p ← a.value? p
    let q ← a.value? q
    -- The bits that no byte takes must be zero.
    if q % 16 = 0 then some [UInt8.ofNat (p * 4 + q / 16)] else none
  | [p, q, r] => do
    let p ← a.value? p
    let q ← a.value? q
    let r ← a.value? r
    if r % 4 = 0 then
      let n := p * 1024 + q * 16 + r / 4
      some [UInt8.ofNat (n / 256), UInt8.ofNat (n % 256)]
    else none
  | p :: q :: r :: s :: rest => do
    let p ← a.value? p
    let q ← a.value? q
    let r ← a.value? r
    let s ← a.value? s
    let n := p * 262144 + q * 4096 + r * 64 + s
    let bytes ← decode a rest
    return UInt8.ofNat (n / 65536) :: UInt8.ofNat (n / 256 % 256) :: UInt8.ofNat (n % 256) :: bytes

/-! ## What is written reads back -/

theorem urlSafe_value?_char {n : Nat} (h : n < 64) : urlSafe.value? (urlSafe.char n) = some n := by
  have : ∀ n : Fin 64, urlSafe.value? (urlSafe.char n.val) = some n.val := by decide
  exact this ⟨n, h⟩

theorem decode_encode (bytes : List UInt8) :
    decode urlSafe (encode urlSafe bytes) = some bytes := by
  fun_induction encode urlSafe bytes with
  | case1 => rfl
  | case2 x n =>
    have hx : x.toNat < 256 := x.toNat_lt
    simp only [decode, urlSafe_value?_char (show n / 4 < 64 by omega),
      urlSafe_value?_char (show n % 4 * 16 < 64 by omega), Option.bind_eq_bind, Option.bind_some]
    rw [if_pos (by omega), show n / 4 * 4 + n % 4 * 16 / 16 = x.toNat by omega]
    simp
  | case3 x y n =>
    have hx : x.toNat < 256 := x.toNat_lt
    have hy : y.toNat < 256 := y.toNat_lt
    simp only [decode, urlSafe_value?_char (show n / 1024 < 64 by omega),
      urlSafe_value?_char (show n / 16 % 64 < 64 by omega),
      urlSafe_value?_char (show n % 16 * 4 < 64 by omega), Option.bind_eq_bind, Option.bind_some]
    rw [if_pos (by omega),
      show n / 1024 * 1024 + n / 16 % 64 * 16 + n % 16 * 4 / 4 = n by omega,
      show n / 256 = x.toNat by omega, show n % 256 = y.toNat by omega]
    simp
  | case4 x y z rest n ih =>
    have hx : x.toNat < 256 := x.toNat_lt
    have hy : y.toNat < 256 := y.toNat_lt
    have hz : z.toNat < 256 := z.toNat_lt
    simp only [decode, urlSafe_value?_char (show n / 262144 < 64 by omega),
      urlSafe_value?_char (show n / 4096 % 64 < 64 by omega),
      urlSafe_value?_char (show n / 64 % 64 < 64 by omega),
      urlSafe_value?_char (show n % 64 < 64 by omega), Option.bind_eq_bind, Option.bind_some, ih]
    rw [show n / 262144 * 262144 + n / 4096 % 64 * 4096 + n / 64 % 64 * 64 + n % 64 = n by omega,
      show n / 65536 = x.toNat by omega, show n / 256 % 256 = y.toNat by omega,
      show n % 256 = z.toNat by omega]
    simp

end Bearer.Text.Base64
