/-
  A shared cache on a Redis server.

  Keys are sent with a name space in front.  Every operation is one round trip,
  except that keys are deleted in batches and a scan goes on until its cursor
  is back at zero.  The server is a script of replies: commands sent together
  get theirs together, and where too few are left the round trip times out.
-/
import Bearer.Cache.Shared
import Bearer.Redis.Reply
import Bearer.Text.Sort

namespace Bearer.Redis

/-- A server that answers from a script, and the commands that it was sent. -/
structure Peer where
  replies : List Reply
  sent : List (List String)
  deriving Inhabited

/-- The replies to commands sent together, or nothing if too few are left. -/
def Peer.exchange (p : Peer) (commands : List (List String)) : Option (List Reply) × Peer :=
  let sent := p.sent ++ commands
  if commands.length ≤ p.replies.length then
    (some (p.replies.take commands.length), ⟨p.replies.drop commands.length, sent⟩)
  else (none, { p with sent })

/-- The settings of a shared cache on a Redis server. -/
structure Settings where
  /-- What stands before every key, with a colon; nothing does if it is empty. -/
  nameSpace : String
  /-- How long a round trip may take. -/
  timeout : Duration
  deriving DecidableEq, Repr

namespace Settings

/-- The number of keys that are deleted at once. -/
def batch : Nat := 500

/-- A key as the server knows it. -/
def key (s : Settings) (k : String) : String :=
  if s.nameSpace = "" then k else s.nameSpace ++ ":" ++ k

/-- The key that the server knows under a name; a name outside the name space is its own key. -/
def ofKey (s : Settings) (k : String) : String :=
  if s.nameSpace = "" then k
  else
    let before := s.nameSpace.toList ++ [':']
    if before.isPrefixOf k.toList then String.ofList (k.toList.drop before.length) else k

end Settings

/-- A time to live in milliseconds, at least one, as the server takes it. -/
def ttlMillis (ttl : Duration) : Nat := max 1 (min ttl.millis (UInt64.size - 1))

/-- The time that a server says is left; it says a negative number if there is no key or no end. -/
def remaining (millis : Int) : Option Duration :=
  if 0 ≤ millis then some (.ofMillis millis.toNat) else none

/-- A moment and a server; failing operations are cache errors. -/
abbrev Link := ExceptT CacheError (StateM (Moment × Peer))

/-- Sends commands together and reads the replies to them.  Each command that times out takes a
millisecond more than a round trip may. -/
def exchange {α : Type} (s : Settings) (operation : String) (commands : List (List String))
    (read : List Reply → Option α) : Link α := do
  let (now, peer) ← get
  match peer.exchange commands with
  | (none, peer) => do
    -- Each command is waited for on its own.
    let late : Duration := ⟨commands.length * (s.timeout.nanos + 1000000)⟩
    set (now.after late, peer)
    throw .timeout
  | (some replies, peer) => do
    set (now, peer)
    if replies.any Reply.isError then
      throw (.unavailable (.command operation "the server answered with an error"))
    match read replies with
    | some a => return a
    | none => throw (.unavailable (.command operation "response was of incompatible type"))

/-- Sends one command and reads its reply. -/
def command {α : Type} (s : Settings) (operation : String) (words : List String)
    (read : Reply → Option α) : Link α :=
  exchange s operation [words] fun replies => replies.head?.bind read

/-- The keys that a scan reports from a cursor on; `fuel` bounds the number of pages. -/
def scanFrom (s : Settings) (pattern : String) : Nat → Nat → Link (List String)
  | 0, _ => return []
  | fuel + 1, cursor => do
    let (next, keys) ← command s "SCAN"
      ["SCAN", Text.Decimal.natText cursor, "MATCH", s.key pattern, "COUNT", "200"] Reply.page?
    if next = 0 then return keys
    else return keys ++ (← scanFrom s pattern fuel next)

/-- The keys that match a pattern, in ascending order, each once.  Every page takes a reply. -/
def scan (s : Settings) (pattern : String) : Link (List String) := do
  let (_, peer) ← get
  let keys ← scanFrom s pattern (peer.replies.length + 1) 0
  -- A server may report a key on more than one page.
  return Text.sortDistinct (keys.map s.ofKey)

/-- Deletes keys in batches and adds up the counts in 64 bits; `fuel` bounds the number of
batches. -/
def deleteBatches (s : Settings) : Nat → List String → Link Nat
  | 0, _ | _, [] => return 0
  | fuel + 1, keys => do
    let n ← command s "DEL" ("DEL" :: (keys.take Settings.batch).map s.key) Reply.word?
    return (n + (← deleteBatches s fuel (keys.drop Settings.batch))) % UInt64.size

/-- Whether the number in a reply is positive. -/
def positive? (r : Reply) : Option Bool := r.word?.map fun n => 0 < n

/-- The round trips of a call. -/
def perform (s : Settings) : (c : SharedCall) → Link c.Answer
  | .get key => command s "GET" ["GET", s.key key] Reply.optionalText?
  | .getWithTtl key =>
    exchange s "GET+PTTL" [["GET", s.key key], ["PTTL", s.key key]] fun
      | [value, millis] => do
        let value ← value.optionalText?
        let millis ← millis.int?
        some (value.map fun v => (v, remaining millis))
      | _ => none
  | .set key value ttl =>
    command s "SET PX" ["PSETEX", s.key key, Text.Decimal.natText (ttlMillis ttl), value]
      Reply.unit?
  | .delete key => command s "DEL" ["DEL", s.key key] positive?
  | .deleteMany keys => deleteBatches s keys.length keys
  | .contains key => command s "EXISTS" ["EXISTS", s.key key] Reply.bool?
  | .expire key ttl =>
    command s "PEXPIRE"
      ["PEXPIRE", s.key key,
        Text.Decimal.natText (min (ttlMillis ttl) (Text.Decimal.int64Bound - 1))] Reply.bool?
  | .scan pattern => scan s pattern
  | .hashSet key field value =>
    command s "HSET" ["HSET", s.key key, field, value] fun r => r.int?.map fun _ => ()
  | .hashGet key field => command s "HGET" ["HGET", s.key key, field] Reply.optionalText?
  | .hashDelete key field => command s "HDEL" ["HDEL", s.key key, field] positive?
  | .increment key delta =>
    command s "INCRBY" ["INCRBY", s.key key, Text.Decimal.intText delta] Reply.int?
  | .decrement key delta =>
    command s "DECRBY" ["DECRBY", s.key key, Text.Decimal.intText delta] Reply.int?
  | .setAdd key member => command s "SADD" ["SADD", s.key key, member] positive?
  | .setRemove key member => command s "SREM" ["SREM", s.key key, member] positive?
  | .setContains key member => command s "SISMEMBER" ["SISMEMBER", s.key key, member] Reply.bool?

/-- A shared cache on a Redis server. -/
structure Store where
  settings : Settings
  peer : Peer

instance : SharedBackend Store where
  perform c now s :=
    let (reply, (now, peer)) := (Redis.perform s.settings c).run (now, s.peer)
    (reply, now, { s with peer })

/-- Whether the server answers a greeting with a text. -/
def Peer.ping (p : Peer) : Bool × Peer :=
  match p.exchange [["PING"]] with
  | (some [reply], p) => (reply.text?.isSome, p)
  | (_, p) => (false, p)

end Bearer.Redis
