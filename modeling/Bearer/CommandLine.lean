/-
  The command line.

  Two options, each with one value: `--settings FILE` and `--log-filter FILTER`.
  The value may follow an equals sign, and may then be empty, or be the next
  argument.  An option whose value is in the next argument is settled only when
  the next option comes or the arguments end, so that an argument that nobody
  knows is reported before an option that is given twice.
-/

namespace Bearer

/-- What the command line says. -/
structure CommandLine where
  /-- The file with the settings. -/
  settings : Option String := none
  /-- The log filter that beats the one of the settings. -/
  logFilter : Option String := none
  deriving DecidableEq, Repr, Inhabited

/-- Why a command line is not followed. -/
inductive UsageError where
  | unknownArgument
  /-- An option lacks its value. -/
  | missingValue
  /-- An option is given twice. -/
  | repeatedOption
  /-- A value is attached to an option that has none. -/
  | unexpectedValue
  /-- The user asks for help. -/
  | helpRequested
  deriving DecidableEq, Repr

namespace CommandLine

/-- The options with a value. -/
inductive Setting where
  | settings
  | logFilter
  deriving DecidableEq, Repr

/-- The option of a name. -/
def Setting.named? (name : List Char) : Option Setting :=
  if name = "settings".toList then some .settings
  else if name = "log-filter".toList then some .logFilter
  else none

/-- The value that an option has been given. -/
def get? (c : CommandLine) : Setting → Option String
  | .settings => c.settings
  | .logFilter => c.logFilter

/-- The command line with a value for an option. -/
def set (c : CommandLine) (value : String) : Setting → CommandLine
  | .settings => { c with settings := some value }
  | .logFilter => { c with logFilter := some value }

/-- Gives an option its value, once. -/
def give (c : CommandLine) (option : Setting) (value : String) : Except UsageError CommandLine :=
  if (c.get? option).isSome then .error .repeatedOption else .ok (c.set value option)

/-- The options read so far. -/
structure Progress where
  given : CommandLine
  /-- The last option, if its value is not attached, with the value once it is known. -/
  pending : Option (Setting × Option String)

/-- Settles the last option. -/
def Progress.settle (p : Progress) : Except UsageError CommandLine :=
  match p.pending with
  | none => .ok p.given
  | some (_, none) => .error .missingValue
  | some (option, some value) => p.given.give option value

/-- Splits a name from the value after the first equals sign. -/
def splitValue : List Char → List Char × Option String
  | [] => ([], none)
  | c :: s =>
    if c = '=' then ([], some (String.ofList s))
    else
      let (name, value) := splitValue s
      (c :: name, value)

/-- Reads an argument that starts with two dashes. -/
def Progress.long (p : Progress) (text : List Char) : Except UsageError Progress :=
  let (name, value) := splitValue text
  match Setting.named? name with
  | some option =>
    match value with
    -- An attached value is settled at once.
    | some value => do return ⟨← (← p.settle).give option value, none⟩
    | none => do return ⟨← p.settle, some (option, none)⟩
  | none =>
    if name = "help".toList then
      match value with
      | some _ => .error .unexpectedValue
      | none => do
        let _ ← p.settle
        throw .helpRequested
    else .error .unknownArgument

/-- Reads one argument before a lone pair of dashes. -/
def Progress.next (p : Progress) (arg : String) : Except UsageError Progress :=
  match arg.toList with
  | '-' :: '-' :: name => p.long name
  | '-' :: 'h' :: _ => do
    let _ ← p.settle
    throw .helpRequested
  | '-' :: _ :: _ => .error .unknownArgument
  | _ =>
    match p.pending with
    | some (option, none) => .ok { p with pending := some (option, some arg) }
    | _ => .error .unknownArgument

/-- Reads the arguments.  Nothing may follow a lone pair of dashes. -/
def Progress.read (p : Progress) : List String → Except UsageError CommandLine
  | [] => p.settle
  | arg :: args =>
    if arg = "--" then if args.isEmpty then p.settle else .error .unknownArgument
    else
      match p.next arg with
      | .ok p => p.read args
      | .error e => .error e

/-- Reads the arguments of the program. -/
def parse (args : List String) : Except UsageError CommandLine :=
  Progress.read ⟨{}, none⟩ args

end CommandLine

/-- The log filter in force: the command line beats the settings. -/
def CommandLine.filterOver (c : CommandLine) (fromSettings : String) : String :=
  c.logFilter.getD fromSettings

end Bearer
