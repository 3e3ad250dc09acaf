/-
  Password hashes in text.

  A hash is kept in the form `$algorithm$v=version$name=value,...$salt$hash`,
  where salt and hash are in base 64 without padding.  Everything after the
  algorithm may be missing.  Reading checks the form of every field; only
  verifying asks whether algorithm, version and parameters make sense, and a
  text without salt or hash verifies no password.
-/
import Bearer.Crypto.Argon2
import Bearer.Text.Base64
import Bearer.Text.Decimal
import Bearer.Text.Split
import Bearer.Text.Utf8

namespace Bearer.Crypto

/-- The fields of a password hash. -/
structure PasswordHash where
  algorithm : String
  version : Option Nat
  params : List (String × List Char)
  /-- The salt as it is written. -/
  salt : Option (List Char)
  hash : Option (List UInt8)

namespace PasswordHash

/-- Whether the text can name an algorithm or a parameter. -/
def isName (s : List Char) : Bool :=
  !s.isEmpty && s.length ≤ 32 && s.all fun c => c.isLower || c.isDigit || c = '-'

/-- Whether the text can be the value of a parameter. -/
def isValue (s : List Char) : Bool :=
  s.length ≤ 64 && s.all fun c => c.isAlphanum || c = '/' || c = '+' || c = '.' || c = '-'

/-- A number without leading zeros that fits 32 bits. -/
def number? (s : List Char) : Option Nat :=
  if s.isEmpty || (s.head? = some '0' && 1 < s.length) then none
  else
    match Text.Decimal.readDigits UInt32.size 0 s with
    | .ok n => some n
    | .error _ => none

/-- One parameter: a name, an equals sign and a value. -/
def param? (s : List Char) : Option (String × List Char) :=
  match Text.split '=' s with
  | [name, value] => if isName name && isValue value then some (String.ofList name, value) else none
  | _ => none

/-- Parameters separated by commas. -/
def params? (s : List Char) : Option (List (String × List Char)) :=
  if (String.ofList s).utf8ByteSize ≤ 127 then (Text.split ',' s).mapM param? else none

/-- The version field, if the text is one, and the fields after it. -/
def takeVersion? : List (List Char) → Option (Option Nat × List (List Char))
  | ('v' :: '=' :: version) :: rest =>
    -- With a comma, these are parameters of which the first is called `v`.
    if version.contains ',' then some (none, ('v' :: '=' :: version) :: rest)
    else if isValue version then (number? version).map fun n => (some n, rest)
    else none
  | fields => some (none, fields)

/-- The parameters, if the first field holds any, and the fields after it. -/
def takeParams? : List (List Char) → Option (List (String × List Char) × List (List Char))
  | field :: rest =>
    if field.contains '=' then (params? field).map fun ps => (ps, rest)
    else some ([], field :: rest)
  | [] => some ([], [])

/-- A salt as it is written: 4 to 64 characters that can be a value. -/
def salt? (s : List Char) : Option (List Char) :=
  if 4 ≤ s.length && isValue s then some s else none

/-- A hash of 10 to 64 bytes. -/
def output? (s : List Char) : Option (List UInt8) :=
  (Text.Base64.decode Text.Base64.standard s).filter fun bytes =>
    10 ≤ bytes.length && bytes.length ≤ 64

/-- Reads the written form. -/
def read? (s : String) : Option PasswordHash := do
  let fields ← match Text.split '$' s.toList with
    | [] :: algorithm :: fields => if isName algorithm then some (algorithm, fields) else none
    | _ => none
  let (algorithm, fields) := fields
  let (version, fields) ← takeVersion? fields
  let (params, fields) ← takeParams? fields
  let algorithm := String.ofList algorithm
  match fields with
  | [] => some { algorithm, version, params, salt := none, hash := none }
  | [salt] => do
    let salt ← salt? salt
    some { algorithm, version, params, salt := some salt, hash := none }
  | [salt, hash] => do
    let salt ← salt? salt
    let hash ← output? hash
    some { algorithm, version, params, salt := some salt, hash := some hash }
  | _ => none

/-- The variant that an algorithm names. -/
def variant? : String → Option Argon2.Variant
  | "argon2d" => some .byData
  | "argon2i" => some .independent
  | "argon2id" => some .hybrid
  | _ => none

/-- The version of a number; without one it is the latest. -/
def version? : Option Nat → Option Argon2.Version
  | none => some .v19
  | some 16 => some .v16
  | some 19 => some .v19
  | some _ => none

/-- The cost where no parameter names another. -/
def defaultCost : Argon2.Cost := { memory := 19456, passes := 2, lanes := 1 }

/-- The cost and the associated data after one parameter. -/
def applyParam? (acc : Argon2.Cost × List UInt8) (param : String × List Char) :
    Option (Argon2.Cost × List UInt8) :=
  let (cost, data) := acc
  match param.1 with
  | "m" => (number? param.2).map fun n => ({ cost with memory := n }, data)
  | "t" => (number? param.2).map fun n => ({ cost with passes := n }, data)
  | "p" => (number? param.2).map fun n => ({ cost with lanes := n }, data)
  | "keyid" =>
    (Text.Base64.decode Text.Base64.standard param.2).bind fun id =>
      if id.length ≤ 8 then some acc else none
  | "data" =>
    (Text.Base64.decode Text.Base64.standard param.2).bind fun data =>
      if data.length ≤ 32 then some (cost, data) else none
  | _ => none

/-- What to hash for a password, if algorithm, version, parameters and salt make sense. -/
def input? (h : PasswordHash) (password : String) (salt : List Char) (length : Nat) :
    Option Argon2.Input := do
  let variant ← variant? h.algorithm
  let version ← version? h.version
  let (cost, associated) ← h.params.foldlM applyParam? (defaultCost, [])
  let salt ← Text.Base64.decode Text.Base64.standard salt
  if cost.Valid ∧ 8 ≤ salt.length then
    some { variant, version, cost, password := Text.Utf8.bytes password, salt, associated, length }
  else none

/-- Whether the password is the hashed one; nothing if the hash cannot be computed. -/
def verify? (h : PasswordHash) (password : String) : Option Bool :=
  match h.salt, h.hash with
  | some salt, some hash => (h.input? password salt hash.length).map fun input => input.hash = hash
  -- Without salt or hash there is nothing that a password could match.
  | _, _ => some false

/-- The written form of the hash of a password. -/
def create (cost : Argon2.Cost) (salt : List UInt8) (password : String) : String :=
  let input : Argon2.Input :=
    { variant := .hybrid, version := .v19, cost, password := Text.Utf8.bytes password, salt,
      associated := [], length := 32 }
  let base64 bytes := String.ofList (Text.Base64.encode Text.Base64.standard bytes)
  "$argon2id$v=19$m=" ++ Text.Decimal.natText cost.memory ++ ",t=" ++
    Text.Decimal.natText cost.passes ++ ",p=" ++ Text.Decimal.natText cost.lanes ++ "$" ++
    base64 salt ++ "$" ++ base64 input.hash

end PasswordHash

end Bearer.Crypto
