/-
  A tree of settings, before anyone knows what they should be.

  The top-level names of a document are paths: dots and subscripts lead into
  sections and lists, so that several names can fill one section.  A value that
  is wanted as another type is converted if that makes sense, because settings
  are often written as texts.
-/
import Bearer.Number.Shortest
import Bearer.Toml.Document

namespace Bearer.Settings

/-- A place in a tree of settings. -/
inductive Node where
  /-- A place in a list that nobody filled. -/
  | missing
  | boolean (b : Bool)
  | integer (n : Int)
  | float (x : Double)
  | text (s : String)
  | list (items : List Node)
  | group (members : List (String × Node))
  deriving Inhabited

namespace Node

mutual

/-- The settings of a TOML value.  A date is its text. -/
def ofToml : Toml.Value → Node
  | .text s | .datetime s => .text s
  | .integer n => .integer n
  | .float x => .float x
  | .boolean b => .boolean b
  | .array items => .list (ofItems items)
  | .table _ members => .group (ofMembers members)
  | .tables rows => .list (ofRows rows)

/-- The settings of the items of an array. -/
def ofItems : List Toml.Value → List Node
  | [] => []
  | v :: vs => ofToml v :: ofItems vs

/-- The settings of the members of a table. -/
def ofMembers : List (String × Toml.Value) → List (String × Node)
  | [] => []
  | (name, v) :: ms => (name, ofToml v) :: ofMembers ms

/-- The settings of the tables of an array. -/
def ofRows : List (List (String × Toml.Value)) → List Node
  | [] => []
  | ms :: rows => .group (ofMembers ms) :: ofRows rows

end

/-! ## Paths -/

/-- A step of a path. -/
inductive Step where
  | name (s : String)
  /-- A place in a list, counted from the end if it is negative. -/
  | index (i : Int)
  deriving DecidableEq, Repr

/-- Whether the character can stand in a name of a path. -/
def isNameChar (c : Char) : Bool :=
  Text.Decimal.isDigit c || ('a' ≤ c && c ≤ 'z') || ('A' ≤ c && c ≤ 'Z') || c = '_' || c = '-'

/-- Reads the steps after the first name; `fuel` bounds their number. -/
def steps? : Nat → List Char → Option (List Step)
  | _, [] => some []
  | 0, _ => none
  | fuel + 1, '.' :: s =>
    match s.span isNameChar with
    | ([], _) => none
    | (name, s) => (steps? fuel s).map (.name (String.ofList name) :: ·)
  | fuel + 1, '[' :: s =>
    match s.span (· ≠ ']') with
    | (number, ']' :: s) => do
      -- There may be white space around the number, but it has no plus sign.
      let number := ((number.dropWhile Toml.isSpace).reverse.dropWhile Toml.isSpace).reverse
      if number.head? = some '+' then none
      let i ← Text.Decimal.readInt64? (String.ofList number)
      return .index i :: (← steps? fuel s)
    | _ => none
  | _, _ => none

/-- The path of a top-level name.  A name that is no path stands for itself. -/
def path (s : String) : List Step :=
  match s.toList.span isNameChar with
  | ([], _) => [.name s]
  | (name, rest) =>
    match steps? s.length rest with
    | some steps => .name (String.ofList name) :: steps
    | none => [.name s]

/-! ## Filling a tree -/

/-- The members of a group; anything else has none. -/
def members : Node → List (String × Node)
  | group ms => ms
  | _ => []

/-- The items of a list; anything else has none. -/
def items : Node → List Node
  | list vs => vs
  | _ => []

/-- The member of a name. -/
def get? (name : String) : List (String × Node) → Option Node
  | [] => none
  | (other, v) :: ms => if other = name then some v else get? name ms

/-- Gives a member a value. -/
def set (name : String) (v : Node) : List (String × Node) → List (String × Node)
  | [] => [(name, v)]
  | (other, w) :: ms => if other = name then (name, v) :: ms else (other, w) :: set name v ms

mutual

/-- Puts a value where another was: a group adds its members to those of the other. -/
def merge (old : Node) : Node → Node
  | group ms => group (mergeMembers old.members ms)
  | v => v

/-- Puts each of some members where another was. -/
def mergeMembers (old : List (String × Node)) : List (String × Node) → List (String × Node)
  | [] => old
  | (name, v) :: ms => mergeMembers (set name (merge ((get? name old).getD missing) v) old) ms

end

/-- The list with room for an index, and where the index lies in it. -/
def makeRoom (vs : List Node) (i : Int) : List Node × Nat :=
  match i with
  | .ofNat k => (vs ++ List.replicate (k + 1 - vs.length) missing, k)
  | .negSucc k =>
    -- From the end, as far as the list goes; beyond it, places are added in front.
    if k < vs.length then (vs, vs.length - (k + 1))
    else (List.replicate (k + 1 - vs.length) missing ++ vs, 0)

/-- Puts a value at the end of a path.  What is in the way is replaced. -/
def put (v : Node) : List Step → Node → Node
  | [], old => merge old v
  | .name name :: steps, old =>
    group (set name (put v steps ((get? name old.members).getD missing)) old.members)
  | .index i :: steps, old =>
    let (vs, k) := makeRoom old.items i
    list (vs.set k (put v steps (vs.getD k missing)))

/-- The tree of a document. -/
def ofDocument (ms : Toml.Members) : Node :=
  ms.foldl (fun tree (name, v) => put (ofToml v) (path name) tree) (group [])

/-! ## Conversions -/

/-- The text in lower case, as far as it is ASCII. -/
def lower (s : String) : String := String.ofList (s.toList.map Char.toLower)

/-- A 64-bit unsigned number.  A float is rounded; a truth value is one or zero, and so is a text
that says yes or no. -/
def word? : Node → Option UInt64
  | integer n => if 0 ≤ n then some (.ofNat n.toNat) else none
  | boolean b => some (if b then 1 else 0)
  | float x => some x.toWord
  | text s =>
    let t := lower s
    if t = "true" ∨ t = "on" ∨ t = "yes" then some 1
    else if t = "false" ∨ t = "off" ∨ t = "no" then some 0
    else (Text.Decimal.readWord s).toOption
  | _ => none

/-- A truth value.  A number is true if it is not zero. -/
def bool? : Node → Option Bool
  | boolean b => some b
  | integer n => some (n ≠ 0)
  | float x => some x.isNonzero
  | text s =>
    let t := lower s
    if t = "1" ∨ t = "true" ∨ t = "on" ∨ t = "yes" then some true
    else if t = "0" ∨ t = "false" ∨ t = "off" ∨ t = "no" then some false
    else none
  | _ => none

/-- A text.  A number or a truth value is written out. -/
def text? : Node → Option String
  | text s => some s
  | boolean b => some (if b then "true" else "false")
  | integer n => some (Text.Decimal.intText n)
  | float x => some x.text
  | _ => none

/-- A text that may be missing. -/
def optionalText? : Node → Option (Option String)
  | missing => some none
  | v => v.text?.map some

end Node

end Bearer.Settings
