/-
  Caches that hold texts that say the same.

  Nothing but decoding looks into a text that is cached.  So caches that hold,
  under the same keys and until the same deadlines, texts that say the same up
  to the number of a session and the time at which a revocation was first
  written, go on doing so, and look-ups in them find values that are the same
  up to that.

  Main statements: the rules for `Blind` operations, and `Alike.fetch`,
  `Alike.store`, `Alike.delete` and `Alike.invalidate`.
-/
import Bearer.Proofs.Cache.Envelope
import Bearer.Proofs.Cache.Tiered
import Bearer.Proofs.Store.Alike

namespace Bearer

/-- What of a cached value matters. -/
def Kind.essence : (kind : Kind) → kind.Content → kind.Content
  | .session => Session.unnumbered
  | .revocation => Revocation.undated
  | .cutoff => id

namespace Envelope

/-- What a text says as a value of each kind. -/
def tells (text : String) (kind : Kind) : Option kind.Content :=
  (decode kind text).toOption.map kind.essence

/-- Values that are the same in what matters are cached as texts that say the same. -/
theorem tells_encode {kind : Kind} {value value' : kind.Content}
    (h : kind.essence value = kind.essence value') :
    tells (encode kind value) = tells (encode kind value') := by
  funext other
  unfold tells
  by_cases hkind : other = kind
  · subst hkind
    rw [decode_encode, decode_encode]
    exact congrArg some h
  · rw [decode_encode_of_ne hkind, decode_encode_of_ne hkind]

end Envelope

open Envelope (tells)

variable {key text text' : String} {now : Moment} {ttl : Duration}

/-! ## The local tier -/

/-- What an entry says, and until when. -/
def LocalEntry.gist (e : LocalEntry) : ((kind : Kind) → Option kind.Content) × Moment :=
  (tells e.value, e.deadline)

namespace LocalCache

variable {c c' : LocalCache}

/-- Whether two caches hold entries that say the same until the same deadlines. -/
def Alike (c c' : LocalCache) : Prop :=
  ∀ key, (c.entries.get? key).map LocalEntry.gist = (c'.entries.get? key).map LocalEntry.gist

theorem Alike.filter (h : Alike c c') (now : Moment) (key : String) :
    ((c.entries.get? key).filter (live now)).map LocalEntry.gist =
      ((c'.entries.get? key).filter (live now)).map LocalEntry.gist := by
  refine map_filter_eq (h key) fun e e' he => ?_
  have hdeadline : e.deadline = e'.deadline := congrArg Prod.snd he
  rw [live, live, hdeadline]

/-- What a look-up finds says the same. -/
theorem Alike.lookup (h : Alike c c') (now : Moment) (key : String) :
    (c.lookup now key).map tells = (c'.lookup now key).map tells := by
  have hgist := congrArg (Option.map Prod.fst) (h.filter now key)
  rw [Option.map_map, Option.map_map] at hgist
  rw [LocalCache.lookup, LocalCache.lookup, Option.map_map, Option.map_map]
  exact hgist

theorem Alike.delete (h : Alike c c') (key : String) : Alike (c.delete key) (c'.delete key) := by
  intro other
  unfold LocalCache.delete
  rw [Table.get?_erase, Table.get?_erase]
  split
  · rfl
  · exact h other

theorem get?_evict (c : LocalCache) (now : Moment) (key other : String) :
    (c.evict now key).entries.get? other =
      if other = key then (c.entries.get? key).filter (live now) else c.entries.get? other := by
  unfold evict
  cases hentry : c.entries.get? key with
  | none =>
    dsimp only
    split
    · next heq => rw [heq, hentry, Option.filter_none]
    · rfl
  | some e =>
    rw [Option.filter_some]
    dsimp only
    split
    · split
      · next heq => rw [heq, hentry]
      · rfl
    · rw [Table.get?_erase]

theorem Alike.evict (h : Alike c c') (now : Moment) (key : String) :
    Alike (c.evict now key) (c'.evict now key) := by
  intro other
  rw [get?_evict, get?_evict]
  split
  · exact h.filter now key
  · exact h other

theorem Alike.set (h : Alike c c') (htext : tells text = tells text') (now : Moment) (key : String)
    (ttl : Duration) : Alike (c.set now key text ttl) (c'.set now key text' ttl) := by
  unfold LocalCache.set
  split
  · exact h.delete key
  · intro other
    rw [Table.get?_insert, Table.get?_insert]
    split
    · rw [Option.map_some, Option.map_some, LocalEntry.gist, LocalEntry.gist, htext]
    · exact h other

theorem Alike.purge (h : Alike c c') (now : Moment) : Alike (c.purge now) (c'.purge now) := by
  intro key
  unfold LocalCache.purge
  rw [Table.get?_filter, Table.get?_filter]
  exact h.filter now key

end LocalCache

/-! ## The shared tier -/

/-- What an entry says, if it holds a text, and until when. -/
def SharedEntry.gist : SharedEntry → Option ((kind : Kind) → Option kind.Content) × Option Moment
  | ⟨.text text, deadline⟩ => (some (tells text), deadline)
  | ⟨_, deadline⟩ => (none, deadline)

theorem SharedEntry.gist_snd (e : SharedEntry) : e.gist.2 = e.deadline := by
  obtain ⟨value, deadline⟩ := e
  cases value <;> rfl

theorem SharedEntry.live_eq_of_gist {e e' : SharedEntry} (h : e.gist = e'.gist) (now : Moment) :
    e.live now = e'.live now := by
  have hdeadline : e.deadline = e'.deadline := by
    rw [← e.gist_snd, ← e'.gist_snd, h]
  rw [live, live, hdeadline]

namespace SharedMemory

variable {m m' : SharedMemory}

/-- Whether two shared caches answer alike: they hold entries that say the same until the same
deadlines. -/
structure Alike (m m' : SharedMemory) : Prop where
  offline : m.offline = m'.offline
  timingOut : m.timingOut = m'.timingOut
  entries : ∀ key,
    (m.entries.get? key).map SharedEntry.gist = (m'.entries.get? key).map SharedEntry.gist

theorem Alike.lookup (h : Alike m m') (now : Moment) (key : String) :
    (m.lookup now key).map SharedEntry.gist = (m'.lookup now key).map SharedEntry.gist :=
  map_filter_eq (h.entries key) fun _ _ he => SharedEntry.live_eq_of_gist he now

theorem Alike.remove (h : Alike m m') (key : String) : Alike (m.remove key) (m'.remove key) := by
  refine ⟨h.offline, h.timingOut, fun other => ?_⟩
  unfold SharedMemory.remove
  rw [Table.get?_erase, Table.get?_erase]
  split
  · rfl
  · exact h.entries other

theorem Alike.put (h : Alike m m') {e e' : SharedEntry} (he : e.gist = e'.gist) (key : String) :
    Alike (m.put key e) (m'.put key e') := by
  refine ⟨h.offline, h.timingOut, fun other => ?_⟩
  unfold SharedMemory.put
  rw [Table.get?_insert, Table.get?_insert]
  split
  · exact congrArg some he
  · exact h.entries other

theorem Alike.evict (h : Alike m m') (now : Moment) (key : String) :
    Alike (m.evict now key) (m'.evict now key) := by
  have hentry := h.entries key
  unfold SharedMemory.evict
  cases hget : m.entries.get? key with
  | none =>
    rw [hget] at hentry
    cases hget' : m'.entries.get? key with
    | none => exact h
    | some e' =>
      rw [hget'] at hentry
      cases hentry
  | some e =>
    rw [hget] at hentry
    cases hget' : m'.entries.get? key with
    | none =>
      rw [hget'] at hentry
      cases hentry
    | some e' =>
      rw [hget'] at hentry
      dsimp only
      rw [SharedEntry.live_eq_of_gist (Option.some.inj hentry) now]
      split
      · exact h
      · exact h.remove key

/-- The text that a look-up with its remaining time finds, if it finds one. -/
def found (reply : Except CacheError (Option (String × Option Duration))) :
    Option (String × Option Duration) :=
  reply.toOption.join

/-- What a look-up finds says the same, for the same time. -/
theorem Alike.getWithTtl (h : Alike m m') (now : Moment) (key : String) :
    (found (m.perform (.getWithTtl key) now).1).map (Prod.map tells id) =
        (found (m'.perform (.getWithTtl key) now).1).map (Prod.map tells id) ∧
      Alike (m.perform (.getWithTtl key) now).2 (m'.perform (.getWithTtl key) now).2 := by
  unfold perform
  rw [h.offline, h.timingOut]
  split
  · exact ⟨rfl, h⟩
  split
  · exact ⟨rfl, h⟩
  simp only [answer]
  obtain ⟨hentry, hentry'⟩ | ⟨⟨value, deadline⟩, ⟨value', deadline'⟩, hentry, hentry', hgist⟩ :=
    none_or_some (h.lookup now key)
  · rw [hentry, hentry']
    exact ⟨rfl, h.evict now key⟩
  · rw [hentry, hentry']
    -- Both hold texts, or neither does.
    cases value <;> cases value' <;> simp only [SharedEntry.gist, Prod.mk.injEq] at hgist
    all_goals first
      | exact ⟨rfl, h⟩
      | (obtain ⟨htells, rfl⟩ := hgist; cases htells)
      | skip
    obtain ⟨htells, rfl⟩ := hgist
    exact ⟨congrArg (fun said => some (said, _)) (Option.some.inj htells), h⟩

theorem Alike.unreachable_iff (h : Alike m m') : m.Unreachable ↔ m'.Unreachable := by
  rw [Unreachable, Unreachable, h.offline, h.timingOut]

/-- Caches that refuse calls stay as they are; of other ones it is enough to know what they answer. -/
theorem Alike.perform (h : Alike m m') (now : Moment) {c c' : SharedCall}
    (hanswer : Alike (m.answer now c).2 (m'.answer now c').2) :
    Alike (m.perform c now).2 (m'.perform c' now).2 := by
  by_cases hreach : m.Unreachable
  · rw [perform_unreachable hreach, perform_unreachable (h.unreachable_iff.1 hreach)]
    exact h
  · rw [perform_reachable hreach, perform_reachable fun hu => hreach (h.unreachable_iff.2 hu)]
    exact hanswer

theorem Alike.set (h : Alike m m') (htext : tells text = tells text') (now : Moment) (key : String)
    (ttl : Duration) :
    Alike (m.perform (.set key text ttl) now).2 (m'.perform (.set key text' ttl) now).2 := by
  refine h.perform now (h.put ?_ key)
  rw [SharedEntry.gist, SharedEntry.gist, htext]

theorem Alike.delete (h : Alike m m') (now : Moment) (key : String) :
    Alike (m.perform (.delete key) now).2 (m'.perform (.delete key) now).2 :=
  h.perform now (h.remove key)

/-- Removing what a scan finds. -/
theorem Alike.removeMany (h : Alike m m') (now : Moment) (p : String → Bool) :
    Alike (m.removeMany now (m.liveKeys now p)).2 (m'.removeMany now (m'.liveKeys now p)).2 := by
  obtain ⟨hoffline, htimingOut⟩ := m.offline_removeMany now (m.liveKeys now p)
  obtain ⟨hoffline', htimingOut'⟩ := m'.offline_removeMany now (m'.liveKeys now p)
  refine ⟨by rw [hoffline, hoffline', h.offline], by rw [htimingOut, htimingOut', h.timingOut],
    fun key => ?_⟩
  have hfound : key ∈ m.liveKeys now p ↔ key ∈ m'.liveKeys now p := by
    have hlive : (m.lookup now key).isSome = (m'.lookup now key).isSome := by
      have hlookup := congrArg Option.isSome (h.lookup now key)
      rwa [Option.isSome_map, Option.isSome_map] at hlookup
    rw [mem_liveKeys_iff, mem_liveKeys_iff, hlive]
  rw [get?_removeMany, get?_removeMany]
  by_cases hkey : key ∈ m'.liveKeys now p
  · rw [if_pos hkey, if_pos (hfound.2 hkey)]
  · rw [if_neg hkey, if_neg fun hmem => hkey (hfound.1 hmem)]
    exact h.entries key

end SharedMemory

/-! ## Both tiers -/

namespace TieredCache

variable {α β α' β' : Type} {cache cache' : TieredCache} {shared shared' : SharedMemory}

/-- Whether two caches have the same settings and hold entries that say the same. -/
structure Alike (c c' : TieredCache) : Prop where
  config : c.config = c'.config
  hasShared : c.hasShared = c'.hasShared
  near : c.near.Alike c'.near

/-- Whether two operations on caches that are alike answer alike and leave them alike. -/
def Blind (now : Moment) (answers : α → α' → Prop) (m : CacheM α) (m' : CacheM α') : Prop :=
  ∀ c c' s s', Alike c c' → SharedMemory.Alike s s' →
    Ends now m (fun a c₁ s₁ => Ends now m' (fun a' c₁' s₁' =>
      answers a a' ∧ c₁.Alike c₁' ∧ s₁.Alike s₁') c' s') c s

variable {answers : α → α' → Prop} {results : β → β' → Prop} {m : CacheM α} {m' : CacheM α'}

theorem Blind.bind (h : Blind now answers m m') {next : α → CacheM β} {next' : α' → CacheM β'}
    (hnext : ∀ a a', answers a a' → Blind now results (next a) (next' a')) :
    Blind now results (m >>= next) (m' >>= next') := by
  intro c c' s s' hc hs
  simp only [ends_bind]
  obtain ⟨hanswers, hcaches, hshared⟩ := h c c' s s' hc hs
  exact hnext _ _ hanswers _ _ _ _ hcaches hshared

theorem blind_pure {a : α} {a' : α'} (h : answers a a') :
    Blind now answers (pure a) (pure a') :=
  fun _ _ _ _ hc hs => ⟨h, hc, hs⟩

theorem blind_get : Blind now Alike get get := fun _ _ _ _ hc hs => ⟨hc, hc, hs⟩

theorem blind_count (f g : CacheStats → CacheStats) :
    Blind now (fun _ _ => True) (count f) (count g) :=
  fun _ _ _ _ hc hs => ⟨trivial, ⟨hc.config, hc.hasShared, hc.near⟩, hs⟩

theorem blind_modifyNear {f : LocalCache → LocalCache}
    (hf : ∀ {near near' : LocalCache}, near.Alike near' → (f near).Alike (f near')) :
    Blind now (fun _ _ => True) (modifyNear f) (modifyNear f) :=
  fun _ _ _ _ hc hs => ⟨trivial, ⟨hc.config, hc.hasShared, hf hc.near⟩, hs⟩

theorem blind_getNear (key : String) :
    Blind now (fun a a' => a.map tells = a'.map tells) (getNear key) (getNear key) :=
  fun _ _ _ _ hc hs => ⟨hc.near.lookup now key, ⟨hc.config, hc.hasShared, hc.near.evict now key⟩, hs⟩

theorem blind_setNear (htext : tells text = tells text') (key : String) (ttl : Duration) :
    Blind now (fun _ _ => True) (setNear key text ttl) (setNear key text' ttl) := by
  intro c c' s s' hc hs
  refine ⟨trivial, ⟨hc.config, hc.hasShared, ?_⟩, hs⟩
  show LocalCache.Alike (c.near.set now key text (c.localTtl ttl))
    (c'.near.set now key text' (c'.localTtl ttl))
  rw [localTtl, localTtl, hc.config]
  exact hc.near.set htext now key _

theorem blind_counted {c c' : SharedCall} {answers : c.Reply → c'.Reply → Prop}
    (h : ∀ {s s' : SharedMemory}, s.Alike s' →
      answers (s.perform c now).1 (s'.perform c' now).1 ∧
        (s.perform c now).2.Alike (s'.perform c' now).2) :
    Blind now answers (counted c) (counted c') := by
  intro c₁ c₁' s s' hc hs
  obtain ⟨hanswers, hshared⟩ := h hs
  refine ends_counted _ fun stats => ends_counted _ fun stats' => ?_
  exact ⟨hanswers, ⟨hc.config, hc.hasShared, hc.near⟩, hshared⟩

/-- A look-up finds texts that say the same. -/
theorem blind_getString (key : String) :
    Blind now (fun a a' => a.map tells = a'.map tells) (getString key) (getString key) := by
  have hmiss : Blind now (fun a a' => a.map tells = a'.map tells)
      (do count .countMiss; return none) (do count .countMiss; return none) :=
    (blind_count _ _).bind fun _ _ _ => blind_pure rfl
  have hask : Blind now (fun a a' => (SharedMemory.found a).map (Prod.map tells id) =
      (SharedMemory.found a').map (Prod.map tells id))
      (counted (.getWithTtl key)) (counted (.getWithTtl key)) :=
    blind_counted fun hs => hs.getWithTtl now key
  refine (blind_getNear key).bind fun found found' hfound => ?_
  obtain ⟨rfl, rfl⟩ | ⟨text, text', rfl, rfl, htext⟩ := none_or_some hfound
  · refine blind_get.bind fun c c' hc => ?_
    dsimp only
    rw [hc.hasShared]
    split
    · refine hask.bind fun reply reply' hreply => ?_
      -- Only a text that has been found is copied, and then both have found one.
      rcases reply with e | _ | ⟨text, remaining⟩
      · rcases reply' with e' | _ | ⟨text', remaining'⟩
        · exact hmiss
        · exact hmiss
        · cases hreply
      · rcases reply' with e' | _ | ⟨text', remaining'⟩
        · exact hmiss
        · exact hmiss
        · cases hreply
      · rcases reply' with e' | _ | ⟨text', remaining'⟩
        · cases hreply
        · cases hreply
        · obtain ⟨htext, rfl⟩ := Prod.mk.inj (Option.some.inj hreply)
          refine (blind_count _ _).bind fun _ _ _ => blind_get.bind fun c c' hc => ?_
          rw [hc.config]
          exact (blind_setNear htext key _).bind fun _ _ _ => blind_pure (congrArg some htext)
    · exact hmiss
  · exact (blind_count _ _).bind fun _ _ _ => blind_pure hfound

theorem blind_delete (key : String) :
    Blind now (fun _ _ => True) (delete key) (delete key) := by
  refine (blind_modifyNear fun h => h.delete key).bind fun _ _ _ => ?_
  refine blind_get.bind fun c c' hc => ?_
  rw [hc.hasShared]
  split
  · have hask : Blind now (fun _ _ => True) (counted (.delete key)) (counted (.delete key)) :=
      blind_counted fun hs => ⟨trivial, hs.delete now key⟩
    exact hask.bind fun _ _ _ => blind_pure trivial
  · exact blind_pure trivial

theorem blind_fetch (kind : Kind) (key : String) :
    Blind now (fun a a' => a.map kind.essence = a'.map kind.essence)
      (fetch kind key) (fetch kind key) := by
  refine (blind_getString key).bind fun found found' hfound => ?_
  obtain ⟨rfl, rfl⟩ | ⟨text, text', rfl, rfl, htext⟩ := none_or_some hfound
  · exact blind_pure rfl
  · have hvalue := congrFun htext kind
    unfold Envelope.tells at hvalue
    dsimp only
    -- Both texts hold a value of the kind, or neither does and both are removed.
    cases hdecode : Envelope.decode kind text with
    | ok value =>
      rw [hdecode] at hvalue
      cases hdecode' : Envelope.decode kind text' with
      | ok value' =>
        rw [hdecode'] at hvalue
        exact blind_pure hvalue
      | error e =>
        rw [hdecode'] at hvalue
        cases hvalue
    | error e =>
      rw [hdecode] at hvalue
      cases hdecode' : Envelope.decode kind text' with
      | ok value' =>
        rw [hdecode'] at hvalue
        cases hvalue
      | error e' => exact (blind_delete key).bind fun _ _ _ => blind_pure rfl

theorem blind_setString (htext : tells text = tells text') (key : String) (ttl : Option Duration) :
    Blind now (fun _ _ => True) (setString key text ttl) (setString key text' ttl) := by
  refine blind_get.bind fun c c' hc => ?_
  dsimp only
  rw [hc.config]
  split
  · exact blind_delete key
  · refine (blind_setNear htext key _).bind fun _ _ _ => blind_get.bind fun c c' hc => ?_
    rw [hc.hasShared]
    split
    · exact blind_counted fun hs => ⟨trivial, hs.set htext now key _⟩
    · exact blind_pure trivial

/-! ## Calls -/

/-- A look-up finds values that are the same in what matters. -/
theorem Alike.fetch (hc : cache.Alike cache') (hs : shared.Alike shared') (kind : Kind)
    (key : String) (now : Moment) :
    let found := cache.perform (.fetch kind key) now shared
    let found' := cache'.perform (.fetch kind key) now shared'
    found.1.1.map kind.essence = found'.1.1.map kind.essence ∧ found.1.2.Alike found'.1.2 ∧
      found.2.2.Alike found'.2.2 :=
  blind_fetch kind key cache cache' shared shared' hc hs

theorem Alike.store (hc : cache.Alike cache') (hs : shared.Alike shared') {kind : Kind}
    {value value' : kind.Content} (hvalue : kind.essence value = kind.essence value')
    (key : String) (ttl : Option Duration) (now : Moment) :
    let stored := cache.perform (.store kind key value ttl) now shared
    let stored' := cache'.perform (.store kind key value' ttl) now shared'
    stored.1.2.Alike stored'.1.2 ∧ stored.2.2.Alike stored'.2.2 :=
  (blind_setString (Envelope.tells_encode hvalue) key ttl cache cache' shared shared' hc hs).2

theorem Alike.delete (hc : cache.Alike cache') (hs : shared.Alike shared') (key : String)
    (now : Moment) :
    let removed := cache.perform (.delete key) now shared
    let removed' := cache'.perform (.delete key) now shared'
    removed.1.2.Alike removed'.1.2 ∧ removed.2.2.Alike removed'.2.2 :=
  (blind_delete key cache cache' shared shared' hc hs).2

theorem Alike.invalidate (hc : cache.Alike cache') (hs : shared.Alike shared') (pattern : String)
    (now : Moment) :
    let removed := cache.perform (.invalidate pattern) now shared
    let removed' := cache'.perform (.invalidate pattern) now shared'
    removed.1.2.Alike removed'.1.2 ∧ removed.2.2.Alike removed'.2.2 := by
  refine ⟨⟨?_, ?_, fun key => ?_⟩, ?_⟩
  · rw [perform_config, perform_config, hc.config]
  · rw [(perform_reach ..).1, (perform_reach ..).1, hc.hasShared]
  · rw [(perform_invalidate ..).1, (perform_invalidate ..).1]
    rfl
  · rw [perform_invalidate_shared, perform_invalidate_shared, hc.hasShared]
    by_cases hanswers : cache'.hasShared = true ∧ ¬ shared'.Unreachable
    · rw [if_pos hanswers, if_pos ⟨hanswers.1, fun hu => hanswers.2 (hs.unreachable_iff.1 hu)⟩]
      exact hs.removeMany now _
    · rw [if_neg hanswers, if_neg fun h => hanswers ⟨h.1, fun hu => h.2 (hs.unreachable_iff.2 hu)⟩]
      exact hs

end TieredCache

end Bearer
