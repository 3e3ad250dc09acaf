/-
  How old a session can be that a look-up answers.

  However the calls of the session service are interleaved, and however often
  the shared cache fails, a look-up by user answers a session that has been on
  record as this user's, and that had not ended when it was read.  If it was
  read from a cache, then the call that cached it had it from the record, and
  did so less than the time before for which a session may be cached: copies
  from one cache to another do not make it last any longer.

  Main statement: `get_within_lifetime`.
-/
import Bearer.Proofs.Session.Chronicle
import Bearer.Proofs.Session.Lookup

namespace Bearer

open Fleet Deed

variable {n : Nat} {d : Deed n} {log later earlier : List (Deed n)} {user : UserId} {s : Session}

namespace Deed

/-- Whether a deed has read a session from the row of a user. -/
def Reads (d : Deed n) (user : UserId) (s : Session) : Prop :=
  (∃ time, d.request = .session (.findByUser user time)) ∧
    d.before.origin.sessions.rows.get? user = some s

/-- Whether a deed has written a session to the row of a user. -/
def Writes (d : Deed n) (user : UserId) (s : Session) : Prop :=
  (∃ token expiresAt createdAt,
    d.request = .session (.upsert user token expiresAt createdAt)) ∧
    d.after.origin.sessions.rows.get? user = some s

/-- Whether a deed has found a session cached for a user. -/
def Finds (d : Deed n) (user : UserId) (s : Session) : Prop :=
  d.exchange = ⟨.cache (.fetch .session (Key.session user)), some s⟩

theorem reply_of_exchange {r : Request} {reply : r.Reply} (h : d.exchange = ⟨r, reply⟩) :
    d.request = r ∧ (answer d.place r d.before).1 = reply := by
  have hrequest : d.request = r := congrArg Exchange.request h
  subst hrequest
  exact ⟨rfl, eq_of_heq (Exchange.mk.inj h).2⟩

theorem reads_of_exchange (hc : d.before.origin.sessions.Coherent) {time : Instant}
    (h : d.exchange = ⟨.session (.findByUser user time), .ok (some s)⟩) :
    d.Reads user s ∧ s.user = user ∧ time < s.expiresAt := by
  obtain ⟨hrequest, hreply⟩ := reply_of_exchange h
  have hfound : d.before.origin.sessions.findByUser user time = some s := Except.ok.inj hreply
  obtain ⟨hrow, hlive⟩ := SessionStore.findByUser_eq_some_iff.1 hfound
  exact ⟨⟨⟨time, hrequest⟩, hrow⟩, hc.keyed user s hrow, hlive⟩

theorem writes_of_exchange (hc : d.before.origin.sessions.Coherent) {token : String}
    {expiresAt createdAt : Instant}
    (h : d.exchange = ⟨.session (.upsert user token expiresAt createdAt), .ok s⟩) :
    d.Writes user s ∧ s.user = user := by
  obtain ⟨hrequest, hreply⟩ := reply_of_exchange h
  have hperform : (d.before.origin.sessions.perform
      (.upsert user token expiresAt createdAt)).1 = .ok s := hreply
  rcases SessionStore.upsert_cases d.before.origin.sessions user token expiresAt createdAt with
    ⟨row, hrow, hget⟩ | ⟨⟨e, hfailed⟩, -⟩
  · obtain rfl : row = s := Except.ok.inj (hrow.symm.trans hperform)
    refine ⟨⟨⟨token, expiresAt, createdAt, hrequest⟩, ?_⟩, ?_⟩
    · rw [after, hrequest]
      exact hget
    · exact (hc.perform (.upsert user token expiresAt createdAt)).keyed user row hget
  · cases hfailed.symm.trans hperform

/-- Who caches a session for a user has had it from the user's row, or has written it there. -/
theorem source_of_caches (hlog : InOrder (d :: earlier)) (hcaches : d.Caches user s) :
    s.user = user ∧
      ∃ source ∈ earlier, source.call = d.call ∧ (source.Reads user s ∨ source.Writes user s) := by
  obtain ⟨ttl, hrequest⟩ := hcaches
  have hmannered := hlog.lawful.mannered
  rw [hrequest] at hmannered
  obtain ⟨hkey, -, hrecorded⟩ := hmannered
  have huser : s.user = user := (Key.session_injective hkey).symm
  -- What the call has been told of the session is one of the earlier deeds, and was in order.
  have hdeed : ∀ e ∈ history earlier d.call, ∃ source ∈ earlier, source.call = d.call ∧
      source.exchange = e ∧ source.before.origin.sessions.Coherent := by
    intro e he
    obtain ⟨source, hsource, rfl⟩ := List.mem_map.1 he
    obtain ⟨hmem, hcall⟩ := List.mem_filter.1 hsource
    obtain ⟨between, before, rfl⟩ := List.append_of_mem hmem
    have hlawful := hlog (d :: between) source before rfl
    exact ⟨source, hmem, of_decide_eq_true hcall, rfl, hlawful.accounted.coherent⟩
  refine ⟨huser, ?_⟩
  rcases hrecorded with ⟨owner, time, hmem⟩ | ⟨owner, token, expiresAt, createdAt, hmem⟩
  · obtain ⟨source, hsource, hcall, hexchange, hcoherent⟩ := hdeed _ hmem
    obtain ⟨hreads, howner, -⟩ := reads_of_exchange hcoherent hexchange
    obtain rfl : owner = user := howner.symm.trans huser
    exact ⟨source, hsource, hcall, Or.inl hreads⟩
  · obtain ⟨source, hsource, hcall, hexchange, hcoherent⟩ := hdeed _ hmem
    obtain ⟨hwrites, howner⟩ := writes_of_exchange hcoherent hexchange
    obtain rfl : owner = user := howner.symm.trans huser
    exact ⟨source, hsource, hcall, Or.inr hwrites⟩

/-- What is found cached for a user has been cached less than a session's time before. -/
theorem store_of_finds (hd : d.Lawful earlier) (hfinds : d.Finds user s) :
    ∃ store ∈ earlier, store.Caches user s ∧ store.before.clock ≤ d.before.clock ∧
      d.before.clock < store.before.clock.after Key.sessionLifetime := by
  obtain ⟨-, hreply⟩ := reply_of_exchange hfinds
  obtain ⟨deadline, ⟨store, hstore, hcaches, t, rfl, ht⟩, hlive⟩ :=
    (hd.accounted.cached d.place user).of_fetch hreply
  refine ⟨store, hstore, hcaches, hd.accounted.past store hstore, ?_⟩
  exact Nat.lt_of_lt_of_le (hlive t rfl) ht

/-- Between two exchanges of a call that are amid a step, the wall clock has not moved. -/
theorem adjacent_of_history (hlog : InOrder log) {k : Nat} {e e' : Exchange} {h h' : History}
    (hhistory : history log k = h' ++ e' :: e :: h) (hpace : History.pace (e :: h) ≠ .between) :
    ∃ later d' between d earlier, log = later ++ d' :: (between ++ d :: earlier) ∧
      d'.call = k ∧ d.call = k ∧ d'.exchange = e' ∧ d.exchange = e ∧
      d.before.wall = d'.before.wall := by
  obtain ⟨later, d', rest, hsplit, rfl, hrest⟩ := ofCall_of_history hhistory
  obtain ⟨d, rest, rfl, rfl, rfl⟩ := List.map_eq_cons_iff.1 hrest
  obtain ⟨hcall', later, earlier, rfl, hearlier⟩ := log_of_ofCall hsplit
  have hsplit' : ofCall earlier k = [] ++ d :: rest := hearlier
  obtain ⟨hcall, between, before, rfl, -⟩ := log_of_ofCall hsplit'
  refine ⟨later, d', between, d, before, rfl, hcall', hcall, rfl, rfl, ?_⟩
  have hlawful : d'.Lawful (between ++ d :: before) := hlog.of_append.lawful
  refine hlawful.paced ?_ d ?_
  · rw [hcall', history, hearlier]
    exact hpace
  · rw [hcall', hearlier]
    rfl

theorem wall_of_look {time : Instant} (h : d.exchange = ⟨.now, time⟩) : d.before.wall = time :=
  (reply_of_exchange h).2

end Deed

/-- Whether a deed of a call has read a session of a user that had not ended, from the record or
from a cache; who cached it had it from the record, and did so less than a session's time before. -/
def Deed.Sources (log : List (Deed n)) (k : Nat) (user : UserId) (s : Session) : Prop :=
  ∃ later read earlier, log = later ++ read :: earlier ∧ read.call = k ∧
    read.before.wall < s.expiresAt ∧
    (read.Reads user s ∨
      read.Finds user s ∧
        ∃ between store before, earlier = between ++ store :: before ∧ store.Caches user s ∧
          store.before.clock ≤ read.before.clock ∧
          read.before.clock < store.before.clock.after Key.sessionLifetime ∧
          ∃ source ∈ before, source.call = store.call ∧
            (source.Reads user s ∨ source.Writes user s))

/-- A session found in a cache, after which the call has looked at the clock. -/
theorem sources_of_found (hlog : InOrder log) {k : Nat} {time : Instant} {h : History}
    (hhistory : history log k = ⟨.now, time⟩ ::
      ⟨.cache (.fetch .session (Key.session user)), some s⟩ :: h)
    (hlive : time < s.expiresAt) : s.user = user ∧ Sources log k user s := by
  have hpace : History.pace (⟨.cache (.fetch .session (Key.session user)), some s⟩ :: h) ≠
      .between := Pace.noConfusion
  have hsplit : history log k = [] ++ ⟨.now, time⟩ ::
      ⟨.cache (.fetch .session (Key.session user)), some s⟩ :: h := hhistory
  obtain ⟨later, look, between, read, earlier, rfl, -, hcall, hlook, hfinds, hwall⟩ :=
    adjacent_of_history hlog hsplit hpace
  have hread : InOrder (read :: earlier) := hlog.of_append.tail.of_append
  obtain ⟨store, hstore, hcaches, hpast, hlifetime⟩ := store_of_finds hread.lawful hfinds
  obtain ⟨between', before, rfl⟩ := List.append_of_mem hstore
  obtain ⟨huser, hsource⟩ := source_of_caches hread.tail.of_append hcaches
  refine ⟨huser, later ++ look :: between, read, between' ++ store :: before, ?_, hcall, ?_,
    Or.inr ?_⟩
  · rw [List.append_assoc]
    rfl
  · rw [hwall, wall_of_look hlook]
    exact hlive
  · exact ⟨hfinds, between', store, before, rfl, hcaches, hpast, hlifetime, hsource⟩

/-- A session read from the record, for which the call had looked at the clock. -/
theorem sources_of_read (hlog : InOrder log) {k : Nat} {time : Instant} {h h' : History}
    (hhistory : history log k = h' ++
      ⟨.session (.findByUser user time), .ok (some s)⟩ :: ⟨.now, time⟩ :: h)
    (hpace : h.pace = .between) : s.user = user ∧ Sources log k user s := by
  have hlooked : History.pace (⟨.now, time⟩ :: h) ≠ .between := by
    rw [History.pace, hpace]
    exact Pace.noConfusion
  obtain ⟨later, read, between, look, earlier, rfl, hcall, -, hread, hlook, hwall⟩ :=
    adjacent_of_history hlog hhistory hlooked
  obtain ⟨hreads, huser, hlive⟩ :=
    reads_of_exchange hlog.of_append.lawful.accounted.coherent hread
  refine ⟨huser, later, read, _, rfl, hcall, ?_, Or.inl hreads⟩
  rw [← hwall, wall_of_look hlook]
  exact hlive

namespace Chronicle

/-- However calls are interleaved, a session that a look-up by user answers is the user's, had not
ended when it was read, and was read from the record, or from a cache into which a call has put it
that had read it from the record or written it there, less than a session's time before. -/
theorem get_within_lifetime {f : MemoryFleet n} (hfresh : f.Fresh) (beats : List (Beat n))
    {k : Nat} {i : Fin n} (hended : ((begin f).run beats).errands[k]? =
      some ⟨i, .get user, .done (.ok s)⟩) :
    s.user = user ∧ Sources ((begin f).run beats).log k user s := by
  have hsound : ((begin f).run beats).Sound := (sound_begin hfresh).run beats
  have hexplains : (history ((begin f).run beats).log k).Explains user s :=
    hsound.heeds k _ hended s rfl
  rcases hexplains with ⟨time, h, hhistory, hlive⟩ | ⟨time, h', h, hhistory, hpace⟩
  · exact sources_of_found hsound.inOrder hhistory hlive
  · exact sources_of_read hsound.inOrder hhistory hpace

open Fleet.Demo

/-- At one demo instance a session is made and cached; at another one it is about to be looked up,
ten seconds later by the monotonic clock. -/
def demoCreated (i j : Fin 2) : List (Beat 2) :=
  [.start i (.create demoUser "new" demoMinute), .step 0, .step 0, .step 0, .step 0,
    .clocks .epoch (.ofSeconds 10), .start j (.get demoUser)]

/-- The other instance finds the session in the shared cache, and it has not ended. -/
theorem errand_demoCreated :
    ((begin demo).run (demoCreated 0 1 ++ [.step 1, .step 1])).errands[1]? =
      some ⟨1, .get demoUser, .done (.ok demoSession)⟩ := by
  have hseen : (((begin demo).run (demoCreated 0 1)).fleet.cache 1).seen
      ((begin demo).run (demoCreated 0 1)).fleet.clock
      ((begin demo).run (demoCreated 0 1)).fleet.shared
      (Key.session demoUser) = some (Envelope.encode .session demoSession) := rfl
  have hfinds : ((begin demo).run (demoCreated 0 1)).fleet.finds 1 .session (Key.session demoUser) =
      some demoSession := by
    rw [finds, hseen, Option.bind_some, Envelope.decode_encode]
    rfl
  have hasks : ((begin demo).run (demoCreated 0 1)).Asks 1
      ⟨1, .get demoUser, (Sessions.get demoUser).run⟩
      (.cache (.fetch .session (Key.session demoUser))) _ := ⟨rfl, rfl⟩
  rw [← answer_fetch] at hfinds
  rw [run_append, run_cons, run_cons, run_nil, beat_step hasks, hfinds]
  -- All that matters of the fleet after the look-up is its wall clock.
  have hwall : (answer 1 (.cache (.fetch .session (Key.session demoUser)))
      ((begin demo).run (demoCreated 0 1)).fleet).2.wall = .epoch := answer_wall ..
  generalize (answer 1 (.cache (.fetch .session (Key.session demoUser)))
    ((begin demo).run (demoCreated 0 1)).fleet).2 = g at hwall ⊢
  obtain ⟨wall, clock, ids, minted, origin, shared, instances, janitors⟩ := g
  subst hwall
  rfl

theorem get_within_lifetime_cached :
    ((begin demo).run (demoCreated 0 1 ++ [.step 1, .step 1])).errands[1]? =
        some ⟨1, .get demoUser, .done (.ok demoSession)⟩ ∧
      Sources ((begin demo).run (demoCreated 0 1 ++ [.step 1, .step 1])).log 1 demoUser
        demoSession := by
  obtain ⟨-, hsources⟩ := get_within_lifetime (fresh_start ..) _ errand_demoCreated
  exact ⟨errand_demoCreated, hsources⟩

end Chronicle

end Bearer
