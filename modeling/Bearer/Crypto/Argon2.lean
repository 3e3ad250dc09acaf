/-
  Argon2, the memory-hard password hash of RFC 9106.

  A hash fills a memory of one-kilobyte blocks, lane by lane and slice by
  slice, each block made of the one before it and one picked from those that
  are already there.  How the pick is made tells the three variants apart: by
  the data, independently of the data, or independently in the first half of
  the first pass only.
-/
import Bearer.Crypto.Blake2b

namespace Bearer.Crypto.Argon2

open Blake2b (rotateRight words wordBytes)

/-- How blocks are picked. -/
inductive Variant where
  | byData
  | independent
  | hybrid
  deriving DecidableEq, Repr

/-- The number of a variant. -/
def Variant.number : Variant → Nat
  | byData => 0
  | independent => 1
  | hybrid => 2

/-- The version of the algorithm: the later one combines each pass with the one before. -/
inductive Version where
  | v16
  | v19
  deriving DecidableEq, Repr

/-- The number of a version. -/
def Version.number : Version → Nat
  | v16 => 16
  | v19 => 19

/-- The cost of a hash: kilobytes of memory, passes over it, and lanes. -/
structure Cost where
  memory : Nat
  passes : Nat
  lanes : Nat
  deriving DecidableEq, Repr

/-- The bounds within which a cost makes sense. -/
def Cost.Valid (c : Cost) : Prop :=
  1 ≤ c.lanes ∧ c.lanes ≤ 0xFFFFFF ∧ 1 ≤ c.passes ∧ 8 * c.lanes ≤ c.memory ∧ 8 ≤ c.memory

instance (c : Cost) : Decidable c.Valid := by unfold Cost.Valid; infer_instance

/-- A block of memory: 128 words. -/
abbrev Block := Array UInt64

/-- The block of zeros. -/
def zeroBlock : Block := Array.replicate 128 0

/-- A number in four bytes, the lowest first. -/
def fourBytes (n : Nat) : List UInt8 :=
  (List.range 4).map fun i => UInt8.ofNat (n >>> (8 * i))

/-- Hashes of 64 bytes, each of the one before; all but the last give their first half. -/
def chain : Nat → Nat → List UInt8 → List UInt8
  | 0, rest, previous => Blake2b.hash rest previous
  | count + 1, rest, previous =>
    let next := Blake2b.hash 64 previous
    next.take 32 ++ chain count rest next

/-- A hash of any length. -/
def longHash (length : Nat) (message : List UInt8) : List UInt8 :=
  let message := fourBytes length ++ message
  if length ≤ 64 then Blake2b.hash length message
  else
    -- All links but the last give 32 bytes, the last one what is left.
    let halves := (length + 31) / 32 - 2
    let first := Blake2b.hash 64 message
    first.take 32 ++ chain (halves - 1) (length - 32 * halves) first

/-- The sum of two words and twice the product of their lower halves. -/
def blend (x y : UInt64) : UInt64 := x + y + 2 * (x &&& 0xFFFFFFFF) * (y &&& 0xFFFFFFFF)

/-- Mixes four words of a block. -/
@[inline] def mix (v : Block) (ia ib ic id : Nat) : Block :=
  let a := v.getD ia 0
  let b := v.getD ib 0
  let c := v.getD ic 0
  let d := v.getD id 0
  let a := blend a b
  let d := rotateRight (d ^^^ a) 32
  let c := blend c d
  let b := rotateRight (b ^^^ c) 24
  let a := blend a b
  let d := rotateRight (d ^^^ a) 16
  let c := blend c d
  let b := rotateRight (b ^^^ c) 63
  (((v.setIfInBounds ia a).setIfInBounds ib b).setIfInBounds ic c).setIfInBounds id d

/-- Mixes sixteen words as a square of four: its columns, then its diagonals.  The words come in
pairs: the first lies at `start` and each next pair `step` further. -/
def mixSquare (v : Block) (start step : Nat) : Block :=
  let at0 := start
  let at2 := start + step
  let at4 := start + 2 * step
  let at6 := start + 3 * step
  let at8 := start + 4 * step
  let at10 := start + 5 * step
  let at12 := start + 6 * step
  let at14 := start + 7 * step
  let v := mix v at0 at4 at8 at12
  let v := mix v (at0 + 1) (at4 + 1) (at8 + 1) (at12 + 1)
  let v := mix v at2 at6 at10 at14
  let v := mix v (at2 + 1) (at6 + 1) (at10 + 1) (at14 + 1)
  let v := mix v at0 (at4 + 1) at10 (at14 + 1)
  let v := mix v (at0 + 1) at6 (at10 + 1) at12
  let v := mix v at2 (at6 + 1) at8 (at12 + 1)
  mix v (at2 + 1) at4 (at8 + 1) at14

/-- The words of two blocks, combined bit by bit. -/
def xorBlocks (x y : Block) : Block := Array.zipWith (· ^^^ ·) x y

/-- The block made of two: rows and columns of their combination are mixed. -/
def compress (x y : Block) : Block :=
  let r := xorBlocks x y
  let z := (List.range 8).foldl (fun v i => mixSquare v (16 * i) 2) r
  let z := (List.range 8).foldl (fun v i => mixSquare v (2 * i) 16) z
  xorBlocks z r

/-- What a hash is made from. -/
structure Input where
  variant : Variant
  version : Version
  cost : Cost
  password : List UInt8
  salt : List UInt8
  /-- Data that is hashed along with the password. -/
  associated : List UInt8
  /-- The number of bytes of the hash. -/
  length : Nat

namespace Input

/-- The number of blocks in a slice of a lane. -/
def sliceLength (input : Input) : Nat := input.cost.memory / (4 * input.cost.lanes)

/-- The number of blocks in a lane. -/
def laneLength (input : Input) : Nat := 4 * input.sliceLength

/-- The hash of everything that goes in. -/
def seed (input : Input) : List UInt8 :=
  Blake2b.hash 64 <|
    fourBytes input.cost.lanes ++ fourBytes input.length ++ fourBytes input.cost.memory ++
    fourBytes input.cost.passes ++ fourBytes input.version.number ++
    fourBytes input.variant.number ++
    fourBytes input.password.length ++ input.password ++
    fourBytes input.salt.length ++ input.salt ++
    -- There is no secret key, and its length is zero.
    fourBytes 0 ++
    fourBytes input.associated.length ++ input.associated

/-- The memory with the first two blocks of every lane. -/
def firstMemory (input : Input) : Array Block :=
  let seed := input.seed
  let length := input.laneLength
  (List.range input.cost.lanes).foldl
    (fun memory lane =>
      (List.range 2).foldl
        (fun memory column =>
          let bytes := longHash 1024 (seed ++ fourBytes column ++ fourBytes lane)
          memory.setIfInBounds (lane * length + column) (words 128 bytes).toArray)
        memory)
    (Array.replicate (input.cost.lanes * length) zeroBlock)

/-- Whether blocks of a slice are picked independently of the data. -/
def picksBlindly (input : Input) (pass slice : Nat) : Bool :=
  match input.variant with
  | .byData => false
  | .independent => true
  | .hybrid => pass = 0 && slice < 2

/-- The random words for 128 picks that do not look at the data. -/
def addresses (input : Input) (pass lane slice counter : Nat) : Block :=
  let base := zeroBlock
    |>.setIfInBounds 0 (UInt64.ofNat pass)
    |>.setIfInBounds 1 (UInt64.ofNat lane)
    |>.setIfInBounds 2 (UInt64.ofNat slice)
    |>.setIfInBounds 3 (UInt64.ofNat (input.cost.lanes * input.laneLength))
    |>.setIfInBounds 4 (UInt64.ofNat input.cost.passes)
    |>.setIfInBounds 5 (UInt64.ofNat input.variant.number)
    |>.setIfInBounds 6 (UInt64.ofNat counter)
  compress zeroBlock (compress zeroBlock base)

/-- The place of the block that a random word picks. -/
def picked (input : Input) (pass lane slice index : Nat) (random : UInt64) : Nat :=
  let slices := input.sliceLength
  let length := input.laneLength
  let low := (random &&& 0xFFFFFFFF).toNat
  let high := (random >>> 32).toNat
  let source := if pass = 0 && slice = 0 then lane else high % input.cost.lanes
  let finished := if pass = 0 then slice * slices else length - slices
  let area := if source = lane then finished + index - 1
    else if index = 0 then finished - 1 else finished
  -- The square makes recent blocks more likely than old ones.
  let back := (area * ((low * low) >>> 32)) >>> 32
  let start := if pass = 0 then 0 else (slice + 1) * slices % length
  source * length + (start + (area - 1 - back)) % length

/-- Fills one block; the second component holds the random words of blind picks. -/
def fillBlock (input : Input) (pass slice lane : Nat) (state : Array Block × Block) (index : Nat) :
    Array Block × Block :=
  let (memory, random) := state
  let length := input.laneLength
  let blind := input.picksBlindly pass slice
  let random := if blind && index % 128 = 0 then input.addresses pass lane slice (index / 128 + 1)
    else random
  -- The first two blocks of a lane are made from the seed.
  if pass = 0 && slice = 0 && index < 2 then (memory, random)
  else
    let column := slice * input.sliceLength + index
    let here := lane * length + column
    let before := lane * length + (column + length - 1) % length
    let previous := memory.getD before zeroBlock
    let word := if blind then random.getD (index % 128) 0 else previous.getD 0 0
    let reference := memory.getD (input.picked pass lane slice index word) zeroBlock
    let made := compress previous reference
    -- A later pass keeps what was there in the mixture, unless the version is the old one.
    let made := if pass = 0 || input.version = .v16 then made
      else xorBlocks made (memory.getD here zeroBlock)
    (memory.setIfInBounds here made, random)

/-- Fills one slice of one lane. -/
def fillSlice (input : Input) (pass slice : Nat) (memory : Array Block) (lane : Nat) :
    Array Block :=
  ((List.range input.sliceLength).foldl (input.fillBlock pass slice lane) (memory, zeroBlock)).1

/-- Fills the whole memory once. -/
def fillPass (input : Input) (memory : Array Block) (pass : Nat) : Array Block :=
  (List.range 4).foldl
    (fun memory slice => (List.range input.cost.lanes).foldl (input.fillSlice pass slice) memory)
    memory

/-- The hash. -/
def hash (input : Input) : List UInt8 :=
  let memory := (List.range input.cost.passes).foldl input.fillPass input.firstMemory
  let length := input.laneLength
  let last := (List.range input.cost.lanes).foldl
    (fun block lane => xorBlocks block (memory.getD (lane * length + length - 1) zeroBlock))
    zeroBlock
  longHash input.length (last.toList.flatMap wordBytes)

end Input

end Bearer.Crypto.Argon2
