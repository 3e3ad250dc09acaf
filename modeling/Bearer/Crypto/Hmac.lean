/-
  HMAC with SHA-256, the keyed hash of RFC 2104.
-/
import Bearer.Crypto.Sha256

namespace Bearer.Crypto

/-- The key as one block of 64 bytes: a longer one is hashed first. -/
def hmacBlock (key : List UInt8) : List UInt8 :=
  let short := if 64 < key.length then Sha256.hash key else key
  short ++ List.replicate (64 - short.length) 0

/-- The keyed hash of a message, 32 bytes. -/
def hmac (key message : List UInt8) : List UInt8 :=
  let block := hmacBlock key
  let inner := Sha256.hash (block.map (· ^^^ 0x36) ++ message)
  Sha256.hash (block.map (· ^^^ 0x5c) ++ inner)

end Bearer.Crypto
