/-
  The settings as a text to look at.

  All fields in order, on one line.  The signing key is not shown.
-/
import Bearer.Settings.Basic
import Bearer.Text.Quoted

namespace Bearer

/-- A record with its fields. -/
def recordText (name : String) (fields : List (String × String)) : String :=
  let fields := fields.map fun (field, value) => field ++ ": " ++ value
  name ++ " \x7b " ++ String.intercalate ", " fields ++ " \x7d"

namespace Settings

/-- A number as a text. -/
def wordText (n : UInt64) : String := Text.Decimal.natText n.toNat

/-- A truth value as a text. -/
def boolText (b : Bool) : String := if b then "true" else "false"

/-- A text that may be missing. -/
def optionalText : Option String → String
  | none => "None"
  | some s => "Some(" ++ Text.quote s ++ ")"

/-- The section on tokens, without the key. -/
def authText (s : AuthSettings) : String :=
  recordText "Auth" [
    ("issuer", Text.quote s.issuer), ("audience", Text.quote s.audience),
    ("signing_key", Text.quote "<redacted>"), ("access_ttl_secs", wordText s.accessSeconds),
    ("refresh_ttl_secs", wordText s.refreshSeconds)]

/-- The section on caching. -/
def cacheText (s : CacheSettings) : String :=
  recordText "Cache" [
    ("local_ttl_secs", wordText s.localSeconds), ("default_ttl_secs", wordText s.defaultSeconds),
    ("cleanup_interval_secs", wordText s.cleanupSeconds), ("l2_enabled", boolText s.sharedEnabled),
    ("op_timeout_ms", wordText s.timeoutMillis), ("key_prefix", Text.quote s.keySpace)]

/-- The settings as a text. -/
def text (s : Settings) : String :=
  recordText "Settings" [
    ("auth", authText s.auth), ("cache", cacheText s.cache),
    ("store", recordText "Store" [
      ("backend", Text.quote s.store.backend), ("dsn", optionalText s.store.address),
      ("migrate", boolText s.store.migrate)]),
    ("redis", recordText "Redis" [
      ("backend", Text.quote s.shared.backend), ("dsn", optionalText s.shared.address)]),
    ("janitor", recordText "Janitor" [("interval_secs", wordText s.janitorSeconds)]),
    ("log", recordText "Log" [("filter", Text.quote s.logFilter)])]

end Settings

end Bearer
