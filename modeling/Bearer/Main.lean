/-
  The program.

  Reads the command line and the settings, and tells whether a server starts on
  them.  No database and no server of a shared cache is reached from here, so
  only settings that keep everything in memory start one.
-/
import Bearer.CommandLine
import Bearer.Server
import Bearer.Settings.Text

namespace Bearer

/-- The file of the settings where the command line names none. -/
def settingsFile : String := "settings/dev.toml"

/-- How the program is called. -/
def usage : String := "Usage: bearer [--settings <SETTINGS>] [--log-filter <LOG_FILTER>]"

/-- The words for a fault of the command line. -/
def UsageError.message : UsageError → String
  | unknownArgument => "unexpected argument"
  | missingValue => "a value is required"
  | repeatedOption => "an option cannot be used multiple times"
  | unexpectedValue => "unexpected value"
  | helpRequested => "Token lifecycle service with a two-tier cache"

/-- Nothing can be reached. -/
def Network.unreachable : Network where
  hasDatabase _ := false
  database := ⟨[], [], false⟩
  hasShared _ := false
  shared := ⟨[], []⟩

/-- Reads settings and starts a server on them: the settings and the log filter in force, or why
there are none. -/
def launch (line : CommandLine) (document : String) (signingKey : Option String) :
    Except String (String × String) :=
  match Settings.read? document with
  | none => .error "the settings cannot be read"
  | some s =>
    match ((Server.start .epoch ⟨0⟩ .numbered s signingKey).run Network.unreachable).1 with
    | .error fault => .error fault.message
    | .ok server =>
      let _ := server.shutdown
      .ok (s.text, line.filterOver s.logFilter)

end Bearer

open Bearer in
/-- Runs the program. -/
def main (args : List String) : IO UInt32 := do
  match CommandLine.parse args with
  | .error .helpRequested =>
    IO.println (UsageError.helpRequested.message ++ "\n\n" ++ usage)
    return 0
  | .error e =>
    IO.eprintln ("error: " ++ e.message ++ "\n\n" ++ usage)
    return 2
  | .ok line =>
    let document ← IO.FS.readFile (line.settings.getD settingsFile)
    match launch line document (← IO.getEnv "JWT_SIGNING_KEY") with
    | .error message =>
      IO.eprintln ("Error: " ++ message)
      return 1
    | .ok (settings, filter) =>
      IO.println (settings ++ "\nlog filter: " ++ filter)
      return 0
