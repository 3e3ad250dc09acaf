/-
  Invalidating over a Redis server.

  Between the pages of a scan and the batches that are deleted, a key loses its
  prefix, is sorted among the others, loses its repetitions and gets its prefix
  back.  Where every reported key carries the prefix, none of this changes which
  keys are meant or how they are spelt: the batches hold the reported keys, each
  once.  How a scan and a deletion go is said of the script of replies: the first
  replies are answers of the right type, and then comes the last one or one that
  is none.

  Main statements: `scanned_scanFrom`, `deleted_deleteBatches` and
  `invalidate_deletes_reported`.
-/
import Bearer.Cache.Tiered
import Bearer.Redis.Store
import Mathlib.Algebra.GroupWithZero.Nat
import Mathlib.Data.List.Nodup

namespace Bearer

/-- Invalidating scans, and deletes what the scan finds if it finds anything. -/
theorem TieredCache.perform_invalidate_eq {ρ : Type} [SharedBackend ρ] {cache : TieredCache}
    (hshared : cache.hasShared = true) (pattern : String) (now : Moment) (shared : ρ) :
    cache.perform (.invalidate pattern) now shared =
      match SharedBackend.perform (.scan pattern) now shared with
      | (.error e, state) => ((.error e, { cache with near := cache.near.clear }), state)
      | (.ok [], state) => ((.ok 0, { cache with near := cache.near.clear }), state)
      | (.ok keys, (later, left)) =>
        (((SharedBackend.perform (.deleteMany keys) later left).1,
          { cache with near := cache.near.clear }),
          (SharedBackend.perform (.deleteMany keys) later left).2) := by
  obtain ⟨near, hasShared, config, stats⟩ := cache
  obtain rfl : hasShared = true := hshared
  simp only [perform, operation, invalidate, modifyNear, TieredCache.shared, StateT.run_bind,
    StateT.run_modify, StateT.run_get, StateT.run_lift, Prog.pure_eq_done, Prog.bind_eq_bind,
    Prog.bind_done, if_true]
  rw [Prog.run_bind, Prog.run_bind, Prog.run_call]
  simp only [SharedBackend.answer]
  rcases SharedBackend.perform (.scan pattern) now shared with ⟨e | keys, later, left⟩
  · rfl
  · cases keys with
    | nil => rfl
    | cons key keys => rfl

namespace Redis

/-! ## Scripts -/

section

variable {α : Type} {operation : String} {read : Reply → Option α}
variable {r : Reply} {replies rest : List Reply} {answers : List α} {a : α}

/-- What a command makes of the reply to it, if there is one. -/
def outcome (operation : String) (read : Reply → Option α) : Option Reply → Except CacheError α
  | none => .error .timeout
  | some r =>
    if r.isError then
      .error (.unavailable (.command operation "the server answered with an error"))
    else
      match read r with
      | some a => .ok a
      | none => .error (.unavailable (.command operation "response was of incompatible type"))

/-- A sequence goes on with what its first part ends with, or stops at its error. -/
theorem run_bind {β : Type} (m : Link α) (f : α → Link β) (state : Moment × Peer) :
    (m >>= f).run state =
      match m.run state with
      | (.ok a, later) => (f a).run later
      | (.error e, later) => (.error e, later) := by
  show ExceptT.bindCont f (m.run state).1 (m.run state).2 = _
  rcases m.run state with ⟨e | a, later⟩
  · rfl
  · rfl

/-- A command takes the next reply of the script, if there is one. -/
theorem run_command (s : Settings) (operation : String) (words : List String)
    (read : Reply → Option α) (now : Moment) (replies : List Reply) (sent : List (List String)) :
    ∃ later, (command s operation words read).run (now, ⟨replies, sent⟩) =
      (outcome operation read replies.head?, (later, ⟨replies.tail, sent ++ [words]⟩)) := by
  cases replies with
  | nil => exact ⟨_, rfl⟩
  | cons r rest =>
    refine ⟨now, ?_⟩
    have hexchange : Peer.exchange ⟨r :: rest, sent⟩ [words] =
        (some [r], ⟨rest, sent ++ [words]⟩) := by
      simp [Peer.exchange]
    have hget : (get : Link (Moment × Peer)).run (now, ⟨r :: rest, sent⟩) =
        (.ok (now, ⟨r :: rest, sent⟩), (now, ⟨r :: rest, sent⟩)) := rfl
    rw [command, exchange, run_bind, hget]
    dsimp only
    rw [hexchange]
    have hany : [r].any Reply.isError = r.isError := by simp
    dsimp only [List.head?_cons, Option.bind_some, outcome]
    by_cases herror : r.isError = true
    · rw [if_pos (hany.trans herror), if_pos herror]
      rfl
    · rw [if_neg (hany ▸ herror), if_neg herror]
      cases read r <;> rfl

/-- Whether a script begins with replies that give some answers to as many commands. -/
def Serves (operation : String) (read : Reply → Option α) (replies : List Reply) (answers : List α)
    (rest : List Reply) : Prop :=
  ∃ served, replies = served ++ rest ∧
    List.Forall₂ (fun r a => outcome operation read (some r) = .ok a) served answers

theorem serves_nil (replies : List Reply) : Serves operation read replies [] replies :=
  ⟨[], rfl, .nil⟩

theorem Serves.cons (h : Serves operation read replies answers rest)
    (hreply : outcome operation read (some r) = .ok a) :
    Serves operation read (r :: replies) (a :: answers) rest := by
  obtain ⟨served, rfl, hserved⟩ := h
  exact ⟨r :: served, rfl, .cons hreply hserved⟩

end

/-! ## Scans -/

section

variable {s : Settings} {pattern : String} {replies rest : List Reply} {cursor : Nat}

/-- The command that asks for the page at a cursor. -/
def scanCommand (s : Settings) (pattern : String) (cursor : Nat) : List String :=
  ["SCAN", Text.Decimal.natText cursor, "MATCH", s.key pattern, "COUNT", "200"]

/-- How a scan goes from a cursor on: which cursors are asked for, what comes of it, and what is
left of the script.  Pages lead on, each to the next, until one does not or there is none. -/
inductive Scanned (cursor : Nat) (replies : List Reply) :
    List Nat → Except CacheError (List String) → List Reply → Prop where
  | whole {pages : List (Nat × List String)} {keys : List String} {rest : List Reply}
      (serves : Serves "SCAN" Reply.page? replies pages rest) (leadOn : ∀ page ∈ pages, page.1 ≠ 0)
      (last : outcome "SCAN" Reply.page? rest.head? = .ok (0, keys)) :
      Scanned cursor replies (cursor :: pages.map Prod.fst) (.ok (pages.flatMap Prod.snd ++ keys))
        rest.tail
  | stopped {pages : List (Nat × List String)} {e : CacheError} {rest : List Reply}
      (serves : Serves "SCAN" Reply.page? replies pages rest) (leadOn : ∀ page ∈ pages, page.1 ≠ 0)
      (fails : outcome "SCAN" Reply.page? rest.head? = .error e) :
      Scanned cursor replies (cursor :: pages.map Prod.fst) (.error e) rest.tail

/-- A page that leads nowhere ends a scan. -/
theorem scanned_last {keys : List String}
    (h : outcome "SCAN" Reply.page? replies.head? = .ok (0, keys)) :
    Scanned cursor replies [cursor] (.ok keys) replies.tail :=
  @Scanned.whole cursor replies [] keys replies (serves_nil replies) (by simp) h

/-- A reply that is no page stops a scan. -/
theorem scanned_stop {e : CacheError} (h : outcome "SCAN" Reply.page? replies.head? = .error e) :
    Scanned cursor replies [cursor] (.error e) replies.tail :=
  @Scanned.stopped cursor replies [] e replies (serves_nil replies) (by simp) h

theorem Scanned.cons {next : Nat} {keys : List String} {cursors : List Nat} {r : Reply}
    {result : Except CacheError (List String)} (h : Scanned next replies cursors result rest)
    (hreply : outcome "SCAN" Reply.page? (some r) = .ok (next, keys)) (hnext : next ≠ 0) :
    Scanned cursor (r :: replies) (cursor :: cursors) (result.map (keys ++ ·)) rest := by
  have hall {pages : List (Nat × List String)} (hpages : ∀ page ∈ pages, page.1 ≠ 0) :
      ∀ page ∈ (next, keys) :: pages, page.1 ≠ 0 :=
    List.forall_mem_cons.2 ⟨hnext, hpages⟩
  cases h with
  | @whole pages others rest serves leadOn last =>
    have hwhole : Scanned cursor (r :: replies) _ _ _ :=
      .whole (serves.cons hreply) (hall leadOn) last
    rw [List.flatMap_cons, List.append_assoc] at hwhole
    exact hwhole
  | stopped serves leadOn fails => exact .stopped (serves.cons hreply) (hall leadOn) fails

/-- What is reported stands in a page of the script. -/
theorem Scanned.exists_page {cursors : List Nat} {reported : List String} {name : String}
    (h : Scanned cursor replies cursors (.ok reported) rest) (hname : name ∈ reported) :
    ∃ r ∈ replies, ∃ page, outcome "SCAN" Reply.page? (some r) = .ok page ∧ name ∈ page.2 := by
  cases h with
  | @whole pages keys rest serves leadOn last =>
    obtain ⟨served, rfl, hserved⟩ := serves
    rcases List.mem_append.1 hname with hname | hname
    · obtain ⟨page, hpage, hname⟩ := List.mem_flatMap.1 hname
      obtain ⟨i, hi, rfl⟩ := List.mem_iff_getElem.1 hpage
      have hlength := hserved.length_eq
      exact ⟨served[i], by simp, pages[i], hserved.get _ _, hname⟩
    · cases rest with
      | nil => cases last
      | cons r rest => exact ⟨r, by simp, (0, keys), last, hname⟩

/-- A scan goes as the script has it. -/
theorem scanned_scanFrom (s : Settings) (pattern : String) {fuel : Nat} (cursor : Nat)
    (now : Moment) (replies : List Reply) (sent : List (List String))
    (hfuel : replies.length < fuel) :
    ∃ cursors result rest later, Scanned cursor replies cursors result rest ∧
      (scanFrom s pattern fuel cursor).run (now, ⟨replies, sent⟩) =
        (result, (later, ⟨rest, sent ++ cursors.map (scanCommand s pattern)⟩)) := by
  -- Every page takes a reply, so the script gets shorter with the fuel.
  induction fuel generalizing cursor now replies sent with
  | zero => omega
  | succ fuel ih =>
    obtain ⟨later, hrun⟩ := run_command s "SCAN" (scanCommand s pattern cursor) Reply.page? now
      replies sent
    have hscan : (scanFrom s pattern (fuel + 1) cursor).run (now, ⟨replies, sent⟩) =
        match outcome "SCAN" Reply.page? replies.head? with
        | .ok (next, keys) =>
          (if next = 0 then pure keys
            else do return keys ++ (← scanFrom s pattern fuel next)).run
            (later, ⟨replies.tail, sent ++ [scanCommand s pattern cursor]⟩)
        | .error e =>
          (.error e, (later, ⟨replies.tail, sent ++ [scanCommand s pattern cursor]⟩)) := by
      rw [scanFrom, run_bind, ← scanCommand, hrun]
      cases outcome "SCAN" Reply.page? replies.head? <;> rfl
    rw [hscan]
    rcases hreply : outcome "SCAN" Reply.page? replies.head? with e | ⟨next, keys⟩
    · exact ⟨_, _, _, _, scanned_stop hreply, rfl⟩
    dsimp only
    by_cases hnext : next = 0
    · subst hnext
      exact ⟨_, _, _, _, scanned_last hreply, rfl⟩
    · rw [if_neg hnext]
      cases replies with
      | nil => cases hreply
      | cons r replies =>
        obtain ⟨cursors, result, rest, final, hscanned, hrest⟩ :=
          ih next later replies (sent ++ [scanCommand s pattern cursor])
            (Nat.lt_of_succ_lt_succ hfuel)
        refine ⟨cursor :: cursors, result.map (keys ++ ·), rest, final,
          hscanned.cons hreply hnext, ?_⟩
        rw [run_bind, List.tail_cons, hrest, List.map_cons,
          List.append_cons sent _ (cursors.map _)]
        cases result <;> rfl

end

/-! ## Deletions -/

section

variable {batch : List String} {batches sent : List (List String)} {replies rest : List Reply}

/-- How batches of keys are deleted: which of them are sent, and what comes of it.  All of them are
sent and the counts in the replies are added up in 64 bits, or they are sent up to one that fails. -/
inductive Deleted (batches : List (List String)) (replies : List Reply) :
    List (List String) → Except CacheError Nat → Prop where
  | all {counts : List Nat} {rest : List Reply}
      (serves : Serves "DEL" Reply.word? replies counts rest)
      (length : counts.length = batches.length) :
      Deleted batches replies batches (.ok (counts.sum % UInt64.size))
  | stopped {before after : List (List String)} {batch : List String} {counts : List Nat}
      {rest : List Reply} {e : CacheError} (split : batches = before ++ batch :: after)
      (serves : Serves "DEL" Reply.word? replies counts rest)
      (length : counts.length = before.length)
      (fails : outcome "DEL" Reply.word? rest.head? = .error e) :
      Deleted batches replies (before ++ [batch]) (.error e)

theorem deleted_nil (replies : List Reply) : Deleted [] replies [] (.ok 0) :=
  @Deleted.all [] replies [] replies (serves_nil replies) rfl

/-- A reply that is no count stops a deletion. -/
theorem deleted_stop {e : CacheError} (h : outcome "DEL" Reply.word? replies.head? = .error e) :
    Deleted (batch :: batches) replies [batch] (.error e) :=
  @Deleted.stopped (batch :: batches) replies [] batches batch [] replies e rfl
    (serves_nil replies) rfl h

theorem Deleted.cons {r : Reply} {n : Nat} {result : Except CacheError Nat}
    (h : Deleted batches replies sent result)
    (hreply : outcome "DEL" Reply.word? (some r) = .ok n) :
    Deleted (batch :: batches) (r :: replies) (batch :: sent)
      (result.map fun total => (n + total) % UInt64.size) := by
  cases h with
  | all serves length =>
    have hall : Deleted (batch :: batches) (r :: replies) _ _ :=
      .all (serves.cons hreply) (congrArg Nat.succ length)
    rw [List.sum_cons, ← Nat.add_mod_mod] at hall
    exact hall
  | @stopped before after last counts rest e split serves length fails =>
    have hsplit : batch :: batches = (batch :: before) ++ last :: after :=
      congrArg (batch :: ·) split
    exact .stopped hsplit (serves.cons hreply) (congrArg Nat.succ length) fails

/-- The batches in which keys are deleted, as the server knows the keys. -/
def batchesOf (s : Settings) : Nat → List String → List (List String)
  | 0, _ => []
  | _ + 1, [] => []
  | fuel + 1, key :: keys =>
    ((key :: keys).take Settings.batch).map s.key ::
      batchesOf s fuel ((key :: keys).drop Settings.batch)

/-- Batches are deleted as the script has it. -/
theorem deleted_deleteBatches (s : Settings) (fuel : Nat) (keys : List String) (now : Moment)
    (replies : List Reply) (sent : List (List String)) :
    ∃ batches result state, Deleted (batchesOf s fuel keys) replies batches result ∧
      (deleteBatches s fuel keys).run (now, ⟨replies, sent⟩) = (result, state) ∧
      state.2.sent = sent ++ batches.map ("DEL" :: ·) := by
  -- A batch that fails is the last that is sent, whatever the fuel; the others go before the rest.
  induction fuel generalizing keys now replies sent with
  | zero => exact ⟨[], _, _, deleted_nil replies, rfl, by simp⟩
  | succ fuel ih =>
    cases keys with
    | nil => exact ⟨[], _, _, deleted_nil replies, rfl, by simp⟩
    | cons key keys =>
      obtain ⟨later, hrun⟩ := run_command s "DEL"
        ("DEL" :: ((key :: keys).take Settings.batch).map s.key) Reply.word? now replies sent
      have hstep : deleteBatches s (fuel + 1) (key :: keys) = (do
          let n ← command s "DEL" ("DEL" :: ((key :: keys).take Settings.batch).map s.key)
            Reply.word?
          return (n + (← deleteBatches s fuel ((key :: keys).drop Settings.batch))) %
            UInt64.size) := rfl
      rw [hstep, run_bind, hrun, batchesOf]
      rcases hreply : outcome "DEL" Reply.word? replies.head? with e | n
      · exact ⟨[_], _, _, deleted_stop hreply, rfl, rfl⟩
      cases replies with
      | nil => cases hreply
      | cons r replies =>
        obtain ⟨batches, result, state, hdeleted, hrest, hsent⟩ :=
          ih ((key :: keys).drop Settings.batch) later replies
            (sent ++ ["DEL" :: ((key :: keys).take Settings.batch).map s.key])
        refine ⟨_ :: batches, _, state, hdeleted.cons hreply, ?_, ?_⟩
        · dsimp only [List.tail_cons]
          rw [run_bind, hrest]
          cases result <;> rfl
        · rw [hsent, List.map_cons, List.append_cons sent _ (batches.map _)]

theorem flatten_batchesOf (s : Settings) {fuel : Nat} {keys : List String}
    (hfuel : keys.length ≤ fuel) : (batchesOf s fuel keys).flatten = keys.map s.key := by
  induction fuel generalizing keys with
  | zero =>
    obtain rfl := List.length_eq_zero_iff.1 (Nat.le_zero.1 hfuel)
    rfl
  | succ fuel ih =>
    cases keys with
    | nil => rfl
    | cons key keys =>
      have hdrop : ((key :: keys).drop Settings.batch).length ≤ fuel := by
        rw [List.length_drop, Settings.batch]
        omega
      rw [batchesOf, List.flatten_cons, ih hdrop, ← List.map_append, List.take_append_drop]

theorem length_of_mem_batchesOf (s : Settings) {fuel : Nat} {keys batch : List String}
    (h : batch ∈ batchesOf s fuel keys) : batch ≠ [] ∧ batch.length ≤ Settings.batch := by
  induction fuel generalizing keys with
  | zero => cases h
  | succ fuel ih =>
    cases keys with
    | nil => cases h
    | cons key keys =>
      rw [batchesOf] at h
      rcases List.mem_cons.1 h with rfl | h
      · refine ⟨by simp [Settings.batch], ?_⟩
        rw [List.length_map, List.length_take]
        exact Nat.min_le_left _ _
      · exact ih h

end

/-! ## Prefixes -/

namespace Settings

variable {s : Settings} {name key : String}

/-- Whether the server's name of a key carries the prefix; with an empty name space, all do. -/
def Carries (s : Settings) (name : String) : Prop := ∃ key, name = s.key key

theorem ofKey_key (s : Settings) (key : String) : s.ofKey (s.key key) = key := by
  by_cases hempty : s.nameSpace = ""
  · simp only [ofKey, Settings.key, hempty, if_true]
  · have hname : (s.key key).toList = (s.nameSpace.toList ++ [':']) ++ key.toList := by
      simp [Settings.key, hempty]
    have hbefore : (s.nameSpace.toList ++ [':']).isPrefixOf (s.key key).toList = true := by
      rw [List.isPrefixOf_iff_prefix, hname]
      exact List.prefix_append _ _
    simp only [ofKey, hempty, if_false, hbefore, if_true]
    rw [hname, List.drop_left, String.ofList_toList]

/-- A name that carries the prefix is spelt as before when it has lost it and got it back. -/
theorem Carries.key_ofKey (h : s.Carries name) : s.key (s.ofKey name) = name := by
  obtain ⟨key, rfl⟩ := h
  rw [ofKey_key]

theorem key_injective (s : Settings) : Function.Injective s.key :=
  Function.LeftInverse.injective s.ofKey_key

end Settings

/-! ## Invalidations -/

variable {s : Settings} {pattern : String} {replies : List Reply} {reported : List String}

/-- A call to the store is the round trips of the call. -/
theorem perform_store (c : SharedCall) {now later : Moment} {peer peer' : Peer} {reply : c.Reply}
    (h : (perform s c).run (now, peer) = (reply, (later, peer'))) :
    SharedBackend.perform c now (⟨s, peer⟩ : Store) = (reply, later, ⟨s, peer'⟩) := by
  simp only [SharedBackend.perform, h]

/-- What is reported, each name once, in ascending order of the keys. -/
def scannedKeys (s : Settings) (reported : List String) : List String :=
  Text.sortDistinct (reported.map s.ofKey)

theorem scanned_scan (s : Settings) (pattern : String) (now : Moment) (replies : List Reply)
    (sent : List (List String)) :
    ∃ cursors result rest later, Scanned 0 replies cursors result rest ∧
      (scan s pattern).run (now, ⟨replies, sent⟩) =
        (result.map (scannedKeys s),
          (later, ⟨rest, sent ++ cursors.map (scanCommand s pattern)⟩)) := by
  obtain ⟨cursors, result, rest, later, hscanned, hrun⟩ :=
    scanned_scanFrom s pattern 0 now replies sent (Nat.lt_succ_self replies.length)
  refine ⟨cursors, result, rest, later, hscanned, ?_⟩
  have hscan : (scan s pattern).run (now, ⟨replies, sent⟩) =
      (do
        let keys ← scanFrom s pattern (replies.length + 1) 0
        return scannedKeys s keys : Link (List String)).run (now, ⟨replies, sent⟩) := rfl
  rw [hscan, run_bind, hrun]
  cases result <;> rfl

/-- Whether batches hold the names that were reported, each once, and no others. -/
structure Covers (reported : List String) (batches : List (List String)) : Prop where
  distinct : batches.flatten.Nodup
  mem_iff : ∀ name, name ∈ batches.flatten ↔ name ∈ reported
  nonempty : ∀ batch ∈ batches, batch ≠ []
  bounded : ∀ batch ∈ batches, batch.length ≤ 500

/-- Batches of the keys hold the names as they were reported. -/
theorem covers_batchesOf (hcarries : ∀ name ∈ reported, s.Carries name) :
    Covers reported (batchesOf s (scannedKeys s reported).length (scannedKeys s reported)) where
  distinct := by
    rw [flatten_batchesOf s (Nat.le_refl _)]
    exact List.Nodup.map s.key_injective (Text.nodup_sortDistinct _)
  mem_iff name := by
    rw [flatten_batchesOf s (Nat.le_refl _)]
    simp only [scannedKeys, List.mem_map, Text.mem_sortDistinct, exists_exists_and_eq_and]
    constructor
    · rintro ⟨other, hother, rfl⟩
      rw [(hcarries other hother).key_ofKey]
      exact hother
    · intro hname
      exact ⟨name, hname, (hcarries name hname).key_ofKey⟩
  nonempty batch hbatch := (length_of_mem_batchesOf s hbatch).1
  bounded batch hbatch := (length_of_mem_batchesOf s hbatch).2

/-- How a pattern is invalidated: which commands are sent, and what comes of it. -/
inductive Invalidates (s : Settings) (pattern : String) (replies : List Reply) :
    List (List String) → Except CacheError Nat → Prop where
  | scanFailed {cursors : List Nat} {e : CacheError} {rest : List Reply}
      (scan : Scanned 0 replies cursors (.error e) rest) :
      Invalidates s pattern replies (cursors.map (scanCommand s pattern)) (.error e)
  | nothing {cursors : List Nat} {rest : List Reply}
      (scan : Scanned 0 replies cursors (.ok []) rest) :
      Invalidates s pattern replies (cursors.map (scanCommand s pattern)) (.ok 0)
  | deleted {cursors : List Nat} {reported : List String} {rest : List Reply}
      {batches sent : List (List String)} {result : Except CacheError Nat}
      (scan : Scanned 0 replies cursors (.ok reported) rest) (something : reported ≠ [])
      (covers : Covers reported batches) (deletion : Deleted batches rest sent result) :
      Invalidates s pattern replies
        (cursors.map (scanCommand s pattern) ++ sent.map ("DEL" :: ·)) result

/-- Invalidating sends what a scan takes and then, unless the scan fails or reports nothing, the
deletion of what was reported, in batches that hold each reported name once and as it was spelt. -/
theorem invalidate_deletes_reported {cache : TieredCache} (hshared : cache.hasShared = true)
    (s : Settings) (pattern : String) (now : Moment) (replies : List Reply)
    (sent : List (List String))
    (hcarries : ∀ cursors reported rest, Scanned 0 replies cursors (.ok reported) rest →
      ∀ name ∈ reported, s.Carries name) :
    let ended := cache.perform (.invalidate pattern) now (⟨s, ⟨replies, sent⟩⟩ : Store)
    ∃ commands, ended.2.2.peer.sent = sent ++ commands ∧
      Invalidates s pattern replies commands ended.1.1 := by
  intro ended
  obtain ⟨cursors, result, rest, later, hscanned, hrun⟩ := scanned_scan s pattern now replies sent
  have hended : ended = _ := TieredCache.perform_invalidate_eq hshared pattern now _
  rw [perform_store (.scan pattern) hrun] at hended
  rw [hended]
  cases result with
  | error e => exact ⟨_, rfl, .scanFailed hscanned⟩
  | ok reported =>
    have hcovers := covers_batchesOf (hcarries cursors reported rest hscanned)
    rw [Except.map]
    rcases hkeys : scannedKeys s reported with _ | ⟨key, keys⟩
    · -- Without keys there are no batches, and then nothing was reported.
      rw [hkeys] at hcovers
      have hnone : Covers reported [] := hcovers
      obtain rfl : reported = [] :=
        List.eq_nil_iff_forall_not_mem.2 fun name hname => by
          simpa using (hnone.mem_iff name).2 hname
      exact ⟨_, rfl, .nothing hscanned⟩
    · have hsomething : reported ≠ [] := by
        rintro rfl
        cases hkeys
      obtain ⟨batches, answer, ⟨final, peer⟩, hdeleted, hdelete, hsent⟩ :=
        deleted_deleteBatches s (key :: keys).length (key :: keys) later rest
          (sent ++ cursors.map (scanCommand s pattern))
      dsimp only
      rw [perform_store (.deleteMany (key :: keys)) hdelete]
      refine ⟨_, hsent.trans (List.append_assoc _ _ _), ?_⟩
      rw [hkeys] at hcovers
      exact .deleted hscanned hsomething hcovers hdeleted

/-- Two pages that report a key twice, and a count. -/
def demoScript : List Reply :=
  [.array [.bulk "7", .array [.bulk "tv:b", .bulk "tv:a"]],
    .array [.bulk "0", .array [.bulk "tv:a"]], .int 2]

theorem invalidate_deletes_reported_demo :
    (TieredCache.new .default true).hasShared = true ∧
      (∀ cursors reported rest, Scanned 0 demoScript cursors (.ok reported) rest →
        ∀ name ∈ reported, Settings.Carries ⟨"tv", .ofSeconds 1⟩ name) ∧
      let ended := (TieredCache.new .default true).perform (.invalidate "*") ⟨0⟩
        (⟨⟨"tv", .ofSeconds 1⟩, ⟨demoScript, []⟩⟩ : Store)
      (∃ commands, ended.2.2.peer.sent = [] ++ commands ∧
        Invalidates ⟨"tv", .ofSeconds 1⟩ "*" demoScript commands ended.1.1) ∧
      ended.2.2.peer.sent = [["SCAN", "0", "MATCH", "tv:*", "COUNT", "200"],
        ["SCAN", "7", "MATCH", "tv:*", "COUNT", "200"], ["DEL", "tv:a", "tv:b"]] ∧
      ended.1.1 = .ok 2 := by
  have hcarries : ∀ cursors reported rest, Scanned 0 demoScript cursors (.ok reported) rest →
      ∀ name ∈ reported, Settings.Carries ⟨"tv", .ofSeconds 1⟩ name := by
    intro cursors reported rest hscanned name hname
    obtain ⟨r, hr, page, hpage, hname⟩ := hscanned.exists_page hname
    have hkeys : name = "tv:a" ∨ name = "tv:b" := by
      simp only [demoScript, List.mem_cons, List.not_mem_nil, or_false] at hr
      rcases hr with rfl | rfl | rfl
      · obtain rfl : (7, ["tv:b", "tv:a"]) = page := Except.ok.inj hpage
        simpa [or_comm] using hname
      · obtain rfl : (0, ["tv:a"]) = page := Except.ok.inj hpage
        exact Or.inl (List.mem_singleton.1 hname)
      · cases hpage
    rcases hkeys with rfl | rfl
    · exact ⟨"a", by decide⟩
    · exact ⟨"b", by decide⟩
  exact ⟨rfl, hcarries, invalidate_deletes_reported rfl _ _ _ _ _ hcarries, by decide +kernel,
    by decide +kernel⟩

end Redis

end Bearer
