/-
  BLAKE2b without a key, the hash of RFC 7693 with up to 64 bytes.
-/

namespace Bearer.Crypto.Blake2b

/-- The constants that the state starts from. -/
def initial : Array UInt64 :=
  #[0x6a09e667f3bcc908, 0xbb67ae8584caa73b, 0x3c6ef372fe94f82b, 0xa54ff53a5f1d36f1,
    0x510e527fade682d1, 0x9b05688c2b3e6c1f, 0x1f83d9abfb41bd6b, 0x5be0cd19137e2179]

/-- The order in which each round takes the words of the block. -/
def order : List (List Nat) :=
  [[0, 1, 2, 3, 4, 5, 6, 7, 8, 9, 10, 11, 12, 13, 14, 15],
   [14, 10, 4, 8, 9, 15, 13, 6, 1, 12, 0, 2, 11, 7, 5, 3],
   [11, 8, 12, 0, 5, 2, 15, 13, 10, 14, 3, 6, 7, 1, 9, 4],
   [7, 9, 3, 1, 13, 12, 11, 14, 2, 6, 5, 10, 4, 0, 15, 8],
   [9, 0, 5, 7, 2, 4, 10, 15, 14, 1, 11, 12, 6, 8, 3, 13],
   [2, 12, 6, 10, 0, 11, 8, 3, 4, 13, 7, 5, 15, 14, 1, 9],
   [12, 5, 1, 15, 14, 13, 4, 10, 0, 7, 6, 3, 9, 2, 8, 11],
   [13, 11, 7, 14, 12, 1, 3, 9, 5, 0, 15, 4, 8, 6, 2, 10],
   [6, 15, 14, 9, 11, 3, 0, 8, 12, 2, 13, 7, 1, 4, 10, 5],
   [10, 2, 8, 4, 7, 6, 1, 5, 15, 11, 9, 14, 3, 12, 13, 0],
   [0, 1, 2, 3, 4, 5, 6, 7, 8, 9, 10, 11, 12, 13, 14, 15],
   [14, 10, 4, 8, 9, 15, 13, 6, 1, 12, 0, 2, 11, 7, 5, 3]]

/-- The columns and diagonals that a round mixes, in order. -/
def lines : List (Nat × Nat × Nat × Nat) :=
  [(0, 4, 8, 12), (1, 5, 9, 13), (2, 6, 10, 14), (3, 7, 11, 15),
   (0, 5, 10, 15), (1, 6, 11, 12), (2, 7, 8, 13), (3, 4, 9, 14)]

/-- A word turned right by `n` places, `0 < n < 64`. -/
def rotateRight (x n : UInt64) : UInt64 := (x >>> n) ||| (x <<< (64 - n))

/-- The word of up to eight bytes, the first byte lowest. -/
def word : List UInt8 → UInt64
  | [] => 0
  | b :: rest => b.toUInt64 ||| (word rest <<< 8)

/-- The words of bytes, eight to a word; `count` bounds their number. -/
def words : Nat → List UInt8 → List UInt64
  | 0, _ => []
  | _, [] => []
  | count + 1, bytes => word (bytes.take 8) :: words count (bytes.drop 8)

/-- The bytes of a word, the lowest first. -/
def wordBytes (x : UInt64) : List UInt8 :=
  (List.range 8).map fun i => (x >>> (8 * UInt64.ofNat i)).toUInt8

/-- Mixes two words of the block into one line of the working state. -/
def mix (v : Array UInt64) (line : Nat × Nat × Nat × Nat) (x y : UInt64) : Array UInt64 :=
  let (ia, ib, ic, id) := line
  let a := v.getD ia 0 + v.getD ib 0 + x
  let d := rotateRight (v.getD id 0 ^^^ a) 32
  let c := v.getD ic 0 + d
  let b := rotateRight (v.getD ib 0 ^^^ c) 24
  let a := a + b + y
  let d := rotateRight (d ^^^ a) 16
  let c := c + d
  let b := rotateRight (b ^^^ c) 63
  (((v.setIfInBounds ia a).setIfInBounds ib b).setIfInBounds ic c).setIfInBounds id d

/-- One round over the words of the block, taken in the given order. -/
def round (block : Array UInt64) (v : Array UInt64) (picks : List Nat) : Array UInt64 :=
  let picks := picks.toArray
  (List.range 8).foldl
    (fun v i => mix v (lines.getD i (0, 0, 0, 0)) (block.getD (picks.getD (2 * i) 0) 0)
      (block.getD (picks.getD (2 * i + 1) 0) 0)) v

/-- The state after a block; `length` counts the bytes up to its end. -/
def compress (h : Array UInt64) (bytes : List UInt8) (length : Nat) (last : Bool) : Array UInt64 :=
  let block := (words 16 bytes).toArray
  let v := h ++ initial
  -- The count and the mark of the last block keep equal blocks apart.
  let v := v.setIfInBounds 12 (v.getD 12 0 ^^^ UInt64.ofNat length)
  let v := if last then v.setIfInBounds 14 (~~~ v.getD 14 0) else v
  let v := order.foldl (round block) v
  Array.ofFn fun i : Fin 8 => h.getD i 0 ^^^ v.getD i 0 ^^^ v.getD (i + 8) 0

/-- The state after a message; only its last block may be short, and `count` bounds their number. -/
def compressAll : Nat → Array UInt64 → Nat → List UInt8 → Array UInt64
  | 0, h, _, _ => h
  | count + 1, h, before, bytes =>
    if bytes.length ≤ 128 then compress h bytes (before + bytes.length) true
    else compressAll count (compress h (bytes.take 128) (before + 128) false) (before + 128)
      (bytes.drop 128)

/-- The hash of a message in `length` bytes, at most 64. -/
def hash (length : Nat) (message : List UInt8) : List UInt8 :=
  let h := initial.setIfInBounds 0 (initial.getD 0 0 ^^^ 0x01010000 ^^^ UInt64.ofNat length)
  let h := compressAll (message.length / 128 + 1) h 0 message
  (h.toList.flatMap wordBytes).take length

end Bearer.Crypto.Blake2b
