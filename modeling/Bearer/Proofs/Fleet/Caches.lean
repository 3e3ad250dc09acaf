/-
  What the caches of a fleet hold.

  An instance finds what its own cache holds and, if it uses the shared cache,
  what that holds.  A rule about both survives whatever happens, as long as no
  instance caches a text against it; and what may be cached follows from the
  rules of conduct.  The rules that matter are about one key: what its text says
  where it is a value of the kind that belongs there.

  Main statements: `Holds.answer`, `Holds.happen`, `Holds.of_fetch`, and
  `Holds.of_delete` and `Holds.of_store`, by which an instance makes a rule hold.
-/
import Bearer.Proofs.Cache.Envelope
import Bearer.Proofs.Cache.Key
import Bearer.Proofs.Fleet.Run

namespace Bearer

/-- The rule that values of a kind under a key satisfy a property. -/
def EntryRule.under (key : String) (kind : Kind) (p : kind.Content → Option Moment → Prop) :
    EntryRule :=
  fun other text deadline =>
    other = key → ∀ value, Envelope.decode kind text = .ok value → p value deadline

section

variable {key other : String} {kind : Kind} {p : kind.Content → Option Moment → Prop}
variable {now : Moment} {config : CacheConfig} {h : History} {c : CacheCall}

theorem EntryRule.shortens_under
    (hp : ∀ value deadline sooner, p value deadline → (∀ d ∈ deadline, sooner ≤ d) →
      p value (some sooner)) : (EntryRule.under key kind p).Shortens := by
  intro other text deadline sooner hrule hsooner hkey value hdecode
  exact hp value deadline sooner (hrule hkey value hdecode) hsooner

/-! ## What may be cached -/

/-- Caching under another key keeps the rule. -/
theorem keeps_under_of_ne (hkey : other ≠ key) (kind' : Kind) (value : kind'.Content)
    (ttl : Option Duration) :
    TieredCache.Keeps (.under key kind p) now config (.store kind' other value ttl) :=
  fun heq => absurd heq hkey

theorem keeps_under_store (kind : Kind) {p : kind.Content → Option Moment → Prop}
    {value : kind.Content} {ttl : Option Duration}
    (hvalue : other = key → p value (some (now.expiry (ttl.getD config.defaultTtl)))) :
    TieredCache.Keeps (.under key kind p) now config (.store kind other value ttl) := by
  intro heq found hfound
  rw [Envelope.decode_encode] at hfound
  obtain rfl := Except.ok.inj hfound
  exact hvalue heq

/-- A user's cutoff is only cached as the record has just answered it, for one short time. -/
theorem keeps_cutoff {user : UserId} {p : Cutoff → Option Moment → Prop} (hfits : c.Fits h)
    (hp : ∀ revokedBefore time,
      ⟨.revocation (.findCutoff user time), .ok (some revokedBefore)⟩ ∈ h →
      p ⟨user, revokedBefore⟩ (some (now.expiry Key.cutoffLifetime))) :
    TieredCache.Keeps (.under (Key.cutoff user) .cutoff p) now config c := by
  cases c with
  | setString key value ttl => exact absurd hfits id
  | store kind key value ttl =>
    cases kind with
    | session =>
      obtain ⟨rfl, -⟩ := hfits
      exact keeps_under_of_ne (Key.session_ne_cutoff _ _) .session value ttl
    | revocation =>
      obtain ⟨rfl, -⟩ := hfits
      exact keeps_under_of_ne (Key.blacklist_ne_cutoff _ _) .revocation value ttl
    | cutoff =>
      obtain ⟨rfl, rfl, time, hfound⟩ := hfits
      refine keeps_under_store .cutoff fun heq => ?_
      have huser : value.user = user := Key.cutoff_injective heq
      obtain ⟨owner, revokedBefore⟩ := value
      subst huser
      exact hp revokedBefore time hfound
  | _ => trivial

/-- A revocation is only cached as it has just been written or read. -/
theorem keeps_blacklist {tokenId : String} {p : Revocation → Option Moment → Prop}
    (hfits : c.Fits h)
    (hp : ∀ (r : Revocation) ttl, r.tokenId = tokenId →
      (⟨.revocation (.insert tokenId r.expiresAt), .ok ()⟩ ∈ h ∨
        ∃ id time, ⟨.revocation (.findActive id time), .ok (some r)⟩ ∈ h) →
      p r (some (now.expiry ttl))) :
    TieredCache.Keeps (.under (Key.blacklist tokenId) .revocation p) now config c := by
  cases c with
  | setString key value ttl => exact absurd hfits id
  | store kind key value ttl =>
    cases kind with
    | session =>
      obtain ⟨rfl, -⟩ := hfits
      exact keeps_under_of_ne (Key.session_ne_blacklist _ _) .session value ttl
    | cutoff =>
      obtain ⟨rfl, -⟩ := hfits
      exact keeps_under_of_ne (Key.blacklist_ne_cutoff _ _).symm .cutoff value ttl
    | revocation =>
      obtain ⟨rfl, -, hsource⟩ := hfits
      refine keeps_under_store .revocation fun heq => ?_
      have hid : value.tokenId = tokenId := Key.blacklist_injective heq
      exact hp value _ hid (hid ▸ hsource)
  | _ => trivial

end

/-! ## What instances find -/

namespace Fleet

variable {n : Nat} {f : MemoryFleet n} {i j : Fin n} {rule : EntryRule}

/-- Whether a rule allows whatever an instance can find in its cache. -/
structure Holds (f : MemoryFleet n) (rule : EntryRule) (j : Fin n) : Prop where
  shared : (f.cache j).hasShared = true → f.shared.Within rule
  near : (f.cache j).near.Within rule

theorem Holds.mono {rule' : EntryRule}
    (hrule : ∀ key text deadline, rule key text deadline → rule' key text deadline)
    (h : f.Holds rule j) : f.Holds rule' j where
  shared hshared key e he text htext := hrule _ _ _ (h.shared hshared key e he text htext)
  near key e he := hrule _ _ _ (h.near key e he)

/-- What the values under a key satisfy may be replaced by what follows from it. -/
theorem Holds.imp {key : String} {kind : Kind} {p q : kind.Content → Option Moment → Prop}
    (h : f.Holds (.under key kind p) j)
    (hpq : ∀ value deadline, p value deadline → q value deadline) :
    f.Holds (.under key kind q) j :=
  h.mono fun _ _ _ hrule hkey value hdecode => hpq value _ (hrule hkey value hdecode)

/-- Whether an instance uses the shared cache, no request changes. -/
theorem answer_hasShared (f : MemoryFleet n) (i j : Fin n) (r : Request) :
    ((answer i r f).2.cache j).hasShared = (f.cache j).hasShared := by
  rw [answer_cache]
  cases r with
  | cache c =>
    dsimp only
    split
    · next heq =>
      subst heq
      exact ((f.cache i).perform_reach c f.clock f.shared).1
    · rfl
  | _ => rfl

theorem Holds.answer (h : f.Holds rule j) (hrule : rule.Shortens) {r : Request}
    (hkeeps : ∀ c, r = .cache c → TieredCache.Keeps rule f.clock (f.cache i).config c) :
    (Fleet.answer i r f).2.Holds rule j := by
  refine ⟨fun hshared => ?_, ?_⟩
  -- Both tiers come out of a call as the rule wants them; other requests leave them alone.
  · rw [answer_hasShared] at hshared
    rw [answer_shared]
    cases r with
    | cache c => exact (TieredCache.perform_steady hrule (hkeeps c rfl)).within (h.shared hshared)
    | _ => exact h.shared hshared
  · rw [answer_cache]
    cases r with
    | cache c =>
      dsimp only
      split
      · next heq =>
        subst heq
        exact (TieredCache.perform_steady hrule (hkeeps c rfl)).near h.shared h.near
      · exact h.near
    | _ => exact h.near

theorem Holds.happen (h : f.Holds rule j) (e : Event n) : (f.happen e).Holds rule j := by
  cases e with
  | sweep i =>
    refine ⟨fun hshared => h.shared ?_, ?_⟩
    · have hkept : ((f.happen (.sweep i)).cache j).hasShared = (f.cache j).hasShared :=
        part_modifyInstance f i j (fun x => x.cache.hasShared) fun _ => rfl
      exact hkept.symm.trans hshared
    · show ((modifyInstance f i _).instances.get j).cache.near.Within rule
      rw [get_modifyInstance]
      split
      · next heq =>
        subst heq
        exact LocalCache.within_purge h.near f.clock
      · exact h.near
  | _ => exact ⟨h.shared, h.near⟩

/-- What a look-up finds, the rule allows, until a deadline that has not passed. -/
theorem Holds.of_fetch {key : String} {kind : Kind} {p : kind.Content → Option Moment → Prop}
    (h : f.Holds (.under key kind p) i) {value : kind.Content}
    (hfound : (Fleet.answer i (.cache (.fetch kind key)) f).1 = some value) :
    ∃ deadline, p value deadline ∧ ∀ d ∈ deadline, f.clock < d := by
  have hfetch : ((f.cache i).perform (.fetch kind key) f.clock f.shared).1.1 =
      some value := hfound
  rw [TieredCache.perform_fetch, Option.bind_eq_some_iff] at hfetch
  obtain ⟨text, hseen, hdecode⟩ := hfetch
  obtain ⟨deadline, hallowed, hlive⟩ := TieredCache.rule_of_seen h.shared h.near hseen
  refine ⟨deadline, hallowed rfl value ?_, hlive⟩
  -- Only a text that decodes is an answer, and the rule is about what it decodes to.
  cases hcase : Envelope.decode kind text with
  | error e =>
    rw [hcase] at hdecode
    cases hdecode
  | ok found =>
    rw [hcase] at hdecode
    exact congrArg _ (Option.some.inj hdecode)

/-! ## Making a rule hold

  A call about one key settles what both tiers hold under it, unless a shared
  cache that refuses calls is left with something.
-/

theorem Holds.of_delete (key : String) (kind : Kind) (p : kind.Content → Option Moment → Prop)
    (hbarren : f.shared.Unreachable → f.shared.entries = Table.empty) :
    (Fleet.answer i (.cache (.delete key)) f).2.Holds (.under key kind p) i := by
  obtain ⟨hnear, hshared⟩ := (f.cache i).perform_delete key f.clock f.shared
  refine ⟨fun hhas => ?_, ?_⟩
  · rw [answer_hasShared] at hhas
    rw [answer_shared]
    dsimp only
    rw [hshared, if_pos hhas]
    rintro other e he text htext rfl value hdecode
    -- A cache that answers has removed the entry; any other one has none.
    by_cases hreach : f.shared.Unreachable
    · rw [SharedMemory.perform_unreachable hreach, hbarren hreach] at he
      cases he
    · rw [SharedMemory.perform_reachable hreach] at he
      simp [SharedMemory.answer, SharedMemory.remove] at he
  · rw [answer_cache]
    dsimp only
    rw [if_pos rfl, hnear]
    rintro other e he rfl value hdecode
    simp [LocalCache.delete] at he

theorem Holds.of_store (key : String) (kind : Kind) {p : kind.Content → Option Moment → Prop}
    {value : kind.Content} (ttl : Duration)
    (hbarren : f.shared.Unreachable → f.shared.entries = Table.empty)
    (hp : ∀ deadline, p value deadline) :
    (Fleet.answer i (.cache (.store kind key value (some ttl))) f).2.Holds
      (.under key kind p) i := by
  cases hzero : ttl.isZero with
  | true =>
    -- For no time at all means to remove it.
    have hsame : (Fleet.answer i (.cache (.store kind key value (some ttl))) f).2 =
        (Fleet.answer i (.cache (.delete key)) f).2 := by
      unfold Fleet.answer
      dsimp only
      rw [TieredCache.perform_store_zero _ _ _ _ hzero]
    rw [hsame]
    exact Holds.of_delete key kind p hbarren
  | false =>
    obtain ⟨hnear, hshared⟩ := (f.cache i).perform_store kind key value hzero f.clock f.shared
    have hwritten : ∀ found, Envelope.decode kind (Envelope.encode kind value) = .ok found →
        ∀ deadline, p found deadline := by
      intro found hfound deadline
      rw [Envelope.decode_encode] at hfound
      exact Except.ok.inj hfound ▸ hp deadline
    refine ⟨fun hhas => ?_, ?_⟩
    · rw [answer_hasShared] at hhas
      rw [answer_shared]
      dsimp only
      rw [hshared, if_pos hhas]
      rintro other e he text htext rfl found hdecode
      by_cases hreach : f.shared.Unreachable
      · rw [SharedMemory.perform_unreachable hreach, hbarren hreach] at he
        cases he
      · rw [SharedMemory.perform_reachable hreach] at he
        simp only [SharedMemory.answer, SharedMemory.put, Table.get?_insert_self] at he
        obtain rfl := Option.some.inj he
        obtain rfl := SharedValue.text.inj htext
        exact hwritten found hdecode _
    · rw [answer_cache]
      dsimp only
      rw [if_pos rfl, hnear]
      rintro other e he rfl found hdecode
      unfold LocalCache.set at he
      dsimp only at he
      split at he
      · rw [Table.get?_erase_self] at he
        cases he
      · rw [Table.get?_insert_self] at he
        obtain rfl := Option.some.inj he
        exact hwritten found hdecode _

/-! ## Looking up -/

/-- The value of a kind that an instance finds under a key. -/
def finds (f : MemoryFleet n) (j : Fin n) (kind : Kind) (key : String) : Option kind.Content :=
  ((f.cache j).seen f.clock f.shared key).bind fun text =>
    (Envelope.decode kind text).toOption

theorem answer_fetch (f : MemoryFleet n) (j : Fin n) (kind : Kind) (key : String) :
    (Fleet.answer j (.cache (.fetch kind key)) f).1 = f.finds j kind key :=
  TieredCache.perform_fetch ..

/-- What has just been cached is found, or nothing is. -/
theorem finds_store (kind : Kind) (key : String) (value : kind.Content) {ttl : Duration}
    (hsome : ttl.isZero = false) {found : kind.Content}
    (hfound : (answer i (.cache (.store kind key value (some ttl))) f).2.finds i kind key =
      some found) : found = value := by
  obtain ⟨text, hseen, hdecode⟩ := Option.bind_eq_some_iff.1 hfound
  rw [answer_clock, answer_shared, answer_cache] at hseen
  dsimp only at hseen
  rw [if_pos rfl] at hseen
  rw [(f.cache i).seen_store kind key value hsome f.clock f.shared hseen,
    Envelope.decode_encode] at hdecode
  exact (Option.some.inj hdecode).symm

/-- A call about one key changes nothing that any instance finds under another one. -/
theorem finds_answer (f : MemoryFleet n) (i j : Fin n) (kind : Kind) {c : CacheCall}
    {key : String} (hreach : ¬ c.Reaches key) (hkey : ∀ pattern, c ≠ .invalidate pattern) :
    (Fleet.answer i (.cache c) f).2.finds j kind key = f.finds j kind key := by
  have haside := (f.cache i).perform_aside hreach hkey f.clock f.shared
  have hseen : ((Fleet.answer i (.cache c) f).2.cache j).seen f.clock
      ((f.cache i).perform c f.clock f.shared).2.2 key = (f.cache j).seen f.clock f.shared key := by
    rw [answer_cache]
    dsimp only
    split
    · next heq =>
      subst heq
      exact haside.seen_eq
    · unfold TieredCache.seen
      rw [haside.shared]
  unfold finds
  rw [answer_clock, answer_shared]
  dsimp only
  rw [hseen]

/-- Whether the shared cache refuses calls, no request changes. -/
theorem answer_unreachable (f : MemoryFleet n) (i : Fin n) (r : Request) :
    (Fleet.answer i r f).2.shared.Unreachable ↔ f.shared.Unreachable := by
  rw [answer_shared]
  cases r with
  | cache c =>
    exact ((f.cache i).perform_reach c f.clock f.shared).2
  | _ => exact Iff.rfl

end Fleet

end Bearer
