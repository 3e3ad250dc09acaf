/-
  A shared cache kept in memory.

  One timed map for all processes.  An entry is live strictly before its
  deadline, and for ever without one; whatever finds an entry that is not live
  acts as if there were none.  What goes on to write drops such an entry first,
  what only reads passes over it, and removing a key asks afterwards whether
  there was anything.  Counters, hashes and sets start without a deadline and
  keep the one they have; setting a text gives a new one.

  The cache can be taken offline, and it can be made to let every call time out;
  the latter is noticed first.
-/
import Bearer.Cache.Key
import Bearer.Cache.Shared
import Bearer.Table
import Bearer.Text.Glob
import Bearer.Text.Sort

namespace Bearer

/-- What a key holds. -/
inductive SharedValue where
  | text (s : String)
  | hash (fields : Table String String)
  | set (members : Table String Unit)

/-- What a key holds, and until when. -/
structure SharedEntry where
  value : SharedValue
  deadline : Option Moment

/-- Whether an entry is there at `now`. -/
def SharedEntry.live (now : Moment) (e : SharedEntry) : Bool := e.deadline.all fun d => now < d

/-- A shared cache kept in memory. -/
structure SharedMemory where
  entries : Table String SharedEntry
  offline : Bool
  timingOut : Bool
  deriving Inhabited

namespace SharedMemory

/-- The cache without entries, available. -/
def empty : SharedMemory := ⟨Table.empty, false, false⟩

/-- The live entry of a key. -/
def lookup (m : SharedMemory) (now : Moment) (key : String) : Option SharedEntry :=
  (m.entries.get? key).filter (SharedEntry.live now)

/-- Stores an entry. -/
def put (m : SharedMemory) (key : String) (e : SharedEntry) : SharedMemory :=
  { m with entries := m.entries.insert key e }

/-- Removes the entry of a key. -/
def remove (m : SharedMemory) (key : String) : SharedMemory :=
  { m with entries := m.entries.erase key }

/-- Drops the entry of a key if it is not live. -/
def evict (m : SharedMemory) (now : Moment) (key : String) : SharedMemory :=
  match m.entries.get? key with
  | some e => if e.live now then m else m.remove key
  | none => m

/-- The keys of the live entries that satisfy `p`, in ascending order. -/
def liveKeys (m : SharedMemory) (now : Moment) (p : String → Bool) : List String :=
  Text.sortDistinct (m.entries.filter fun key e => e.live now && p key).keys

/-- Removes keys one after the other, and counts those that were live. -/
def removeMany (m : SharedMemory) (now : Moment) : List String → Nat × SharedMemory
  | [] => (0, m)
  | key :: keys =>
    let (n, rest) := (m.remove key).removeMany now keys
    (if (m.lookup now key).isSome then n + 1 else n, rest)

/-- Adds to the number under a key. -/
def add (m : SharedMemory) (now : Moment) (key : String) (delta : Int) :
    Except CacheFault Int × SharedMemory :=
  let m := m.evict now key
  match m.entries.get? key with
  | some ⟨.text s, deadline⟩ =>
    match Text.Decimal.readInt64? s with
    | some n =>
      (.ok (n + delta), m.put key ⟨.text (Text.Decimal.intText (n + delta)), deadline⟩)
    | none => (.error .notAnInteger, m)
  | some _ => (.error (.wrongType key), m)
  | none => (.ok delta, m.put key ⟨.text (Text.Decimal.intText delta), none⟩)

/-- What an available cache answers at `now`, and what it is afterwards. -/
def answer (m : SharedMemory) (now : Moment) :
    (c : SharedCall) → Except CacheFault c.Answer × SharedMemory
  | .get key =>
    match m.lookup now key with
    | some ⟨.text s, _⟩ => (.ok (some s), m)
    | some _ => (.error (.wrongType key), m)
    | none => (.ok none, m.evict now key)
  | .getWithTtl key =>
    match m.lookup now key with
    | some ⟨.text s, deadline⟩ => (.ok (some (s, deadline.map now.timeTo)), m)
    | some _ => (.error (.wrongType key), m)
    | none => (.ok none, m.evict now key)
  | .set key value ttl => (.ok (), m.put key ⟨.text value, some (now.expiry ttl)⟩)
  | .delete key => (.ok (m.lookup now key).isSome, m.remove key)
  | .deleteMany keys =>
    let (n, m) := m.removeMany now keys
    (.ok n, m)
  | .contains key => (.ok (m.lookup now key).isSome, m)
  | .expire key ttl =>
    let m := m.evict now key
    match m.entries.get? key with
    | some e => (.ok true, m.put key { e with deadline := some (now.expiry ttl) })
    | none => (.ok false, m)
  | .scan pattern => (.ok (m.liveKeys now (Text.Glob.isMatch pattern)), m)
  | .hashSet key field value =>
    let m := m.evict now key
    match m.entries.get? key with
    | some ⟨.hash fields, deadline⟩ =>
      (.ok (), m.put key ⟨.hash (fields.insert field value), deadline⟩)
    | some _ => (.error (.wrongType key), m)
    | none => (.ok (), m.put key ⟨.hash (Table.empty.insert field value), none⟩)
  | .hashGet key field =>
    match m.lookup now key with
    | some ⟨.hash fields, _⟩ => (.ok (fields.get? field), m)
    | some _ => (.error (.wrongType key), m)
    | none => (.ok none, m)
  | .hashDelete key field =>
    let m := m.evict now key
    match m.entries.get? key with
    | some ⟨.hash fields, deadline⟩ =>
      (.ok (fields.contains field), m.put key ⟨.hash (fields.erase field), deadline⟩)
    | some _ => (.error (.wrongType key), m)
    | none => (.ok false, m)
  | .increment key delta => m.add now key delta
  | .decrement key delta => m.add now key (-delta)
  | .setAdd key member =>
    let m := m.evict now key
    match m.entries.get? key with
    | some ⟨.set members, deadline⟩ =>
      (.ok (!members.contains member), m.put key ⟨.set (members.insert member ()), deadline⟩)
    | some _ => (.error (.wrongType key), m)
    | none => (.ok true, m.put key ⟨.set (Table.empty.insert member ()), none⟩)
  | .setRemove key member =>
    let m := m.evict now key
    match m.entries.get? key with
    | some ⟨.set members, deadline⟩ =>
      (.ok (members.contains member), m.put key ⟨.set (members.erase member), deadline⟩)
    | some _ => (.error (.wrongType key), m)
    | none => (.ok false, m)
  | .setContains key member =>
    match m.lookup now key with
    | some ⟨.set members, _⟩ => (.ok (members.contains member), m)
    | some _ => (.error (.wrongType key), m)
    | none => (.ok false, m)

/-- Whether a call touches any key; deleting no keys does not. -/
def touchesKeys : SharedCall → Bool
  | .deleteMany [] => false
  | _ => true

/-- What the cache answers at `now`: nothing is done while calls time out, and nothing that touches
a key while it is offline. -/
def perform (c : SharedCall) (now : Moment) (m : SharedMemory) : c.Reply × SharedMemory :=
  if m.timingOut then (.error .timeout, m)
  else if m.offline && touchesKeys c then (.error (.unavailable .offline), m)
  else
    let (result, m) := m.answer now c
    (result.mapError .unavailable, m)

instance : SharedBackend SharedMemory where
  perform c now m :=
    let (reply, m) := m.perform c now
    (reply, now, m)

end SharedMemory

end Bearer
