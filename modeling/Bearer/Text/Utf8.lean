/-
  Characters and bytes.

  A text is encoded as UTF-8.  Decoding goes on after a byte that belongs to
  no character, and yields nothing in its place, so that a reader can tell
  where such a byte stood.
-/

namespace Bearer.Text.Utf8

/-- The bytes of a character. -/
def encodeChar (c : Char) : List UInt8 :=
  let n := c.toNat
  if n < 0x80 then [UInt8.ofNat n]
  else if n < 0x800 then [UInt8.ofNat (0xC0 + n / 64), UInt8.ofNat (0x80 + n % 64)]
  else if n < 0x10000 then
    [UInt8.ofNat (0xE0 + n / 4096), UInt8.ofNat (0x80 + n / 64 % 64), UInt8.ofNat (0x80 + n % 64)]
  else
    [UInt8.ofNat (0xF0 + n / 262144), UInt8.ofNat (0x80 + n / 4096 % 64),
      UInt8.ofNat (0x80 + n / 64 % 64), UInt8.ofNat (0x80 + n % 64)]

/-- The bytes of a text. -/
def encode (s : List Char) : List UInt8 := s.flatMap encodeChar

/-- The bytes of a string. -/
def bytes (s : String) : List UInt8 := encode s.toList

/-- Whether a byte goes on with a character. -/
def isTail (b : UInt8) : Bool := 0x80 ≤ b && b < 0xC0

/-- The value of the low six bits of a byte. -/
def low (b : UInt8) : Nat := b.toNat % 64

/-- The character that starts with byte `a` and goes on in `s`, and how many bytes of `s` it
takes. -/
def char? (a : UInt8) (s : List UInt8) : Option (Char × Nat) :=
  if a < 0x80 then some (Char.ofNat a.toNat, 0)
  else if 0xC2 ≤ a && a < 0xE0 then
    match s with
    | b :: _ => if isTail b then some (Char.ofNat (a.toNat % 32 * 64 + low b), 1) else none
    | [] => none
  else if 0xE0 ≤ a && a < 0xF0 then
    match s with
    | b :: c :: _ =>
      let n := (a.toNat % 16 * 64 + low b) * 64 + low c
      if isTail b && isTail c && 0x800 ≤ n && (n < 0xD800 || 0xE000 ≤ n) then
        some (Char.ofNat n, 2)
      else none
    | _ => none
  else if 0xF0 ≤ a && a < 0xF5 then
    match s with
    | b :: c :: d :: _ =>
      let n := ((a.toNat % 8 * 64 + low b) * 64 + low c) * 64 + low d
      if isTail b && isTail c && isTail d && 0x10000 ≤ n && n < 0x110000 then
        some (Char.ofNat n, 3)
      else none
    | _ => none
  else none

/-- Decodes after passing over the next `taken` bytes. -/
def decodeAfter : Nat → List UInt8 → List (Option Char)
  | _, [] => []
  | taken + 1, _ :: s => decodeAfter taken s
  | 0, a :: s =>
    match char? a s with
    | some (c, taken) => some c :: decodeAfter taken s
    | none => none :: decodeAfter 0 s

/-- The characters of bytes, with nothing for each byte that belongs to no character. -/
def decode (s : List UInt8) : List (Option Char) := decodeAfter 0 s

end Bearer.Text.Utf8
