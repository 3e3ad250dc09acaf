/-
  TOML documents.

  A document is read line by line.  Each line that says something gives a key a
  value or opens a table; what comes of all of them is one table.
-/
import Bearer.Toml.Scalar

namespace Bearer.Toml

/-! ## Keys -/

/-- Whether the character can stand in a key without quotation marks. -/
def isBare (c : Char) : Bool :=
  Text.Decimal.isDigit c || ('a' ≤ c && c ≤ 'z') || ('A' ≤ c && c ≤ 'Z') || c = '_' || c = '-'

/-- Reads one name of a key. -/
def readName (s : List Char) : Option (String × List Char) :=
  match s.span isBare with
  | ([], s) => readLineString s
  | (name, s) => some (String.ofList name, s)

/-- Reads a key.  There may be spaces around its dots; `fuel` bounds the number of names. -/
def readKey : Nat → List Char → Option (Key × List Char)
  | 0, _ => none
  | fuel + 1, s => do
    let (name, s) ← readName s
    match skipSpace s with
    | '.' :: s =>
      let (key, s) ← readKey fuel (skipSpace s)
      return ({ key with path := name :: key.path }, s)
    | s => return (⟨[], name⟩, s)

/-! ## Values -/

/-- How deep arrays and inline tables nest. -/
def maxDepth : Nat := 80

mutual

/-- Reads a value.  `depth` is how deep it may nest, and `fuel` bounds the steps. -/
def readValue : Nat → Nat → List Char → Option (Value × List Char)
  | 0, _, _ => none
  | fuel + 1, depth, s =>
    match s with
    | '[' :: s =>
      match depth with
      | 0 => none
      | depth + 1 => (readItems fuel depth (skipLines s)).map fun (vs, s) => (.array vs, s)
    | '\x7b' :: s =>
      match depth with
      | 0 => none
      | depth + 1 => do
        let (entries, s) ← readEntries fuel depth (skipLines s)
        return (.table .inline (← Members.ofList? entries), s)
    | s =>
      match readString s with
      | some (t, s) => some (.text t, s)
      | none =>
        let (word, rest) := splitWord s
        (wordValue? word).map fun v => (v, rest)

/-- Reads the items of an array up to its closing bracket; a comma may follow the last. -/
def readItems : Nat → Nat → List Char → Option (List Value × List Char)
  | 0, _, _ => none
  | _ + 1, _, ']' :: s => some ([], s)
  | fuel + 1, depth, s => do
    let (v, s) ← readValue fuel depth s
    match skipLines s with
    | ',' :: s =>
      let (vs, s) ← readItems fuel depth (skipLines s)
      return (v :: vs, s)
    | ']' :: s => return ([v], s)
    | _ => none

/-- Reads the members of an inline table up to its closing brace; a comma may follow the last. -/
def readEntries : Nat → Nat → List Char → Option (List (Key × Value) × List Char)
  | 0, _, _ => none
  | _ + 1, _, '\x7d' :: s => some ([], s)
  | fuel + 1, depth, s => do
    let ((key, v), s) ← readEntry fuel depth s
    match skipLines s with
    | ',' :: s =>
      let (es, s) ← readEntries fuel depth (skipLines s)
      return ((key, v) :: es, s)
    | '\x7d' :: s => return ([(key, v)], s)
    | _ => none

/-- Reads a key, an equals sign and a value. -/
def readEntry : Nat → Nat → List Char → Option ((Key × Value) × List Char)
  | 0, _, _ => none
  | fuel + 1, depth, s => do
    let (key, s) ← readKey (s.length + 1) s
    match s with
    | '=' :: s =>
      let (v, s) ← readValue fuel depth (skipSpace s)
      return ((key, v), s)
    | _ => none

end

/-! ## Lines -/

/-- What a line says. -/
inductive Line where
  | entry (key : Key) (v : Value)
  | table (key : Key)
  | appendTable (key : Key)

/-- Reads a line that says something. -/
def readLine (s : List Char) : Option (Line × List Char) :=
  match s with
  | '[' :: '[' :: s => do
    let (key, s) ← readKey (s.length + 1) (skipSpace s)
    match skipSpace s with
    | ']' :: ']' :: s => return (.appendTable key, s)
    | _ => none
  | '[' :: s => do
    let (key, s) ← readKey (s.length + 1) (skipSpace s)
    match skipSpace s with
    | ']' :: s => return (.table key, s)
    | _ => none
  | s => (readEntry (3 * s.length + 3) maxDepth s).map fun ((key, v), s) => (.entry key v, s)

/-- Reads all lines; `fuel` bounds their number. -/
def readLines : Nat → List Char → Option (List Line)
  | 0, _ => none
  | fuel + 1, s =>
    match skipLines s with
    | [] => some []
    | s => do
      let (line, s) ← readLine s
  -- Nothing else may stand on the line.
      let s ← endLine? s
      return line :: (← readLines fuel s)

/-! ## Documents -/

/-- A table that is being written, and the path of the table that was opened last. -/
structure Draft where
  members : Members
  current : List String

/-- What a line adds. -/
def Draft.add (d : Draft) : Line → Option Draft
  | .entry key v => do
    let ms ← d.members.modifyAt false (fun origin ms => ms.insert key v origin) d.current .header
    return { d with members := ms }
  | .table key => do return ⟨← d.members.openTable key, key.path ++ [key.name]⟩
  | .appendTable key => do return ⟨← d.members.appendTable key, key.path ++ [key.name]⟩

/-- The table that a document describes.  A byte order mark in front is passed over. -/
def read? (text : String) : Option Members := do
  let s := match text.toList with
    | '\ufeff' :: s => s
    | s => s
  let lines ← readLines (s.length + 1) s
  let draft ← lines.foldlM Draft.add ⟨[], []⟩
  return draft.members

end Bearer.Toml
