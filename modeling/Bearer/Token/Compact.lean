/-
  The compact written form of a signed token.

  Header, payload and signature in base 64, with points between them.  The
  signature is the keyed hash of the text before the last point.  The reader
  takes the last two points as the separators and judges the header first.
-/
import Bearer.Crypto.Hmac
import Bearer.Json.Reader
import Bearer.Json.Writer
import Bearer.Text.Base64
import Bearer.Text.Utf8

namespace Bearer.Token

open Json (Value)

/-- Bytes in the base 64 of tokens. -/
def base64 (bytes : List UInt8) : List Char := Text.Base64.encode Text.Base64.urlSafe bytes

/-- The JSON value that a part of a token holds. -/
def partJson? (part : List Char) : Option Value := do
  let bytes ← Text.Base64.decode Text.Base64.urlSafe part
  Json.read? (Text.Utf8.decode bytes)

/-- The part of a token that holds a JSON value. -/
def jsonPart (v : Value) : List Char := base64 (Text.Utf8.encode v.write)

/-! ## Headers -/

/-- The name of the one algorithm that tokens are signed with. -/
def algorithm : String := "HS256"

/-- The names of all algorithms that a header may state. -/
def algorithms : List String :=
  ["HS256", "HS384", "HS512", "ES256", "ES384", "RS256", "RS384", "RS512", "PS256", "PS384",
   "PS512", "EdDSA"]

/-- The header of every token. -/
def header : Value := .record [("typ", .text "JWT"), ("alg", .text algorithm)]

/-- Whether a member that may be missing is missing, null or a text. -/
def isOptionalText : Option Value → Bool
  | none | some .null => true
  | some v => v.text?.isSome

/-- Whether a member that may be missing is missing, null or a list of texts. -/
def isOptionalTexts : Option Value → Bool
  | none | some .null => true
  | some (.array items) => items.all fun v => v.text?.isSome
  | some _ => false

/-- The names of the curves that an embedded key may state; its algorithm may have any name. -/
def keyCurves : List String := ["P-256", "P-384", "P-521", "Ed25519"]

/-- Whether a value states a key: the members that its type of key needs, and in any others the
right type of value. -/
def isKey (v : Value) : Bool :=
  match v with
  | .object _ =>
    let common := ["use", "alg", "kid", "x5u", "x5t", "x5t#S256"]
    let own := ["kty", "crv", "x", "y", "n", "e", "k"]
    match v.members? common, v.members? ["key_ops", "x5c"], v.members? own with
    | some texts, some lists, some [kty, crv, x, y, n, e, k] =>
      let isText (m : Option Value) := (m.bind Value.text?).isSome
      let isCurve := ((crv.bind Value.text?).any keyCurves.contains)
      texts.all isOptionalText && lists.all isOptionalTexts &&
        match kty.bind Value.text? with
        | some "EC" => isCurve && isText x && isText y
        | some "RSA" => isText n && isText e
        | some "oct" => isText k
        | some "OKP" => isCurve && isText x
        | _ => false
    | _, _, _ => false
  | _ => false

/-- The algorithm that a header states.  Every other member may be missing, but must have its type
of value. -/
def headerAlgorithm? (v : Value) : Option String := do
  let fields ← v.members?
    ["typ", "alg", "cty", "jku", "jwk", "kid", "x5u", "x5c", "x5t", "x5t#S256"]
  match fields with
  | [typ, some alg, cty, jku, key, kid, x5u, certificates, x5t, x5t256] => do
    let name ← match alg with
      | .string (some name) => some name
      -- An object with nothing but a null member spells a bare name, too.
      | .object [(some name, .null)] => some name
      | _ => none
    let keyFits := match key with
      | none | some .null => true
      | some v => isKey v
    if algorithms.contains name && isOptionalTexts certificates && keyFits &&
        [typ, cty, jku, kid, x5u, x5t, x5t256].all isOptionalText then
      some name
    else none
  | _ => none

/-! ## Writing and reading -/

/-- The signature of a text. -/
def signature (key : List UInt8) (signed : List Char) : List Char :=
  base64 (Crypto.hmac key (Text.Utf8.encode signed))

/-- The token of a payload. -/
def sign (key : List UInt8) (payload : Value) : List Char :=
  let signed := jsonPart header ++ '.' :: jsonPart payload
  signed ++ '.' :: signature key signed

/-- The texts before and after the last occurrence of a character. -/
def splitLast? (c : Char) : List Char → Option (List Char × List Char)
  | [] => none
  | d :: s =>
    match splitLast? c s with
    | some (before, after) => some (d :: before, after)
    | none => if d = c then some ([], s) else none

/-- A token cut into its parts. -/
structure Parts where
  /-- Header and payload, with the point between them. -/
  signed : List Char
  header : List Char
  payload : List Char
  signature : List Char

/-- The parts of a token, if it has two points. -/
def Parts.ofText? (token : List Char) : Option Parts := do
  let (signed, signature) ← splitLast? '.' token
  let (header, payload) ← splitLast? '.' signed
  some { signed, header, payload, signature }

end Bearer.Token
