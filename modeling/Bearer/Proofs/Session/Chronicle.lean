/-
  Calls of the session service between each other.

  Calls of the session service are under way at the same time.  Each request of
  a call is answered by itself; the requests of all calls may be answered in any
  order, and the shared cache may fail and come back, or local caches lose what
  they hold, between any two.  The wall clock may be set forward and back, but
  clocks move only between the steps of calls: not while one has looked at the
  wall clock for the call that it is about to make, or is about to look whether
  what it has found cached has ended.

  Every request that has been answered is on record as a deed, together with the
  fleet as it was before.  What is cached as a session can be traced back to the
  deed by which it was cached, and is cached for no longer than that allows.

  Main statements: `beat_cases`, the one list of what can happen, and `Sound.run`,
  by which every deed of a run was in order.
-/
import Bearer.Proofs.Fleet.Amid
import Bearer.Proofs.Fleet.Interleaving
import Bearer.Proofs.Fleet.Start
import Bearer.Proofs.Session.Sourced

namespace Bearer

open Fleet

/-- A call of the session service at an instance, as far as it has come. -/
structure Errand (n : Nat) where
  place : Fin n
  task : SessionTask
  rest : Program (Except AuthError task.Answer)

/-- A request of a call that has been answered, and the fleet before that. -/
structure Deed (n : Nat) where
  call : Nat
  place : Fin n
  request : Request
  before : MemoryFleet n

/-- A fleet, the calls made of it, the first one first, and what they have done, the latest
first. -/
structure Chronicle (n : Nat) where
  fleet : MemoryFleet n
  errands : List (Errand n)
  log : List (Deed n)

/-- What happens next. -/
inductive Beat (n : Nat) where
  /-- The session service of an instance is called. -/
  | start (i : Fin n) (t : SessionTask)
  /-- The next request of a call is answered, if it has one. -/
  | step (k : Nat)
  /-- The wall clock is set and time passes on the monotonic clock, unless a call is amid a step. -/
  | clocks (wall : Instant) (span : Duration)
  | incident (e : Incident n) (timeless : e.Timeless)

variable {n : Nat}

namespace Deed

variable {log earlier later : List (Deed n)} {d : Deed n} {k : Nat}

/-- The request and what it was answered. -/
def exchange (d : Deed n) : Exchange := ⟨d.request, (answer d.place d.request d.before).1⟩

/-- The fleet after the request has been answered. -/
def after (d : Deed n) : MemoryFleet n := (answer d.place d.request d.before).2

/-- The deeds of one call. -/
def ofCall (log : List (Deed n)) (k : Nat) : List (Deed n) := log.filter fun d => d.call = k

/-- The exchanges of one call. -/
def history (log : List (Deed n)) (k : Nat) : History := (ofCall log k).map exchange

theorem history_cons_self (d : Deed n) (log : List (Deed n)) :
    history (d :: log) d.call = d.exchange :: history log d.call := by
  simp [history, ofCall]

theorem ofCall_cons_of_ne (h : d.call ≠ k) (log : List (Deed n)) :
    ofCall (d :: log) k = ofCall log k := by
  simp [ofCall, h]

theorem history_cons_of_ne (h : d.call ≠ k) (log : List (Deed n)) :
    history (d :: log) k = history log k := by
  rw [history, ofCall_cons_of_ne h, history]

/-- A deed of a call has its place among all deeds. -/
theorem log_of_ofCall (h : ofCall log k = later ++ d :: earlier) :
    d.call = k ∧ ∃ later' earlier', log = later' ++ d :: earlier' ∧
      ofCall earlier' k = earlier := by
  obtain ⟨before, after, rfl, -, hafter⟩ := List.filter_eq_append_iff.1 h
  obtain ⟨skipped, rest, rfl, -, hcall, hrest⟩ := List.filter_eq_cons_iff.1 hafter
  exact ⟨of_decide_eq_true hcall, before ++ skipped, rest, by simp, hrest⟩

/-- An exchange of a call is a deed of it. -/
theorem ofCall_of_history {e : Exchange} {h h' : History} (hlog : history log k = h' ++ e :: h) :
    ∃ later d earlier, ofCall log k = later ++ d :: earlier ∧ d.exchange = e ∧
      earlier.map exchange = h := by
  obtain ⟨later, rest, hsplit, -, hrest⟩ := List.map_eq_append_iff.1 hlog
  obtain ⟨d, earlier, rfl, hd, hearlier⟩ := List.map_eq_cons_iff.1 hrest
  exact ⟨later, d, earlier, hsplit, hd, hearlier⟩

end Deed

open Deed

namespace Chronicle

variable {s : Chronicle n} {k : Nat} {c : Errand n}

/-- A fleet of which nothing has been called yet. -/
def begin (f : MemoryFleet n) : Chronicle n := ⟨f, [], []⟩

/-- Whether a call is amid a step. -/
def isMidway (s : Chronicle n) (k : Nat) (c : Errand n) : Bool :=
  match c.rest with
  | .done _ => false
  | .ask .. => (history s.log k).pace ≠ .between

/-- Whether no call is amid a step. -/
def atRest (s : Chronicle n) : Bool := s.errands.zipIdx.all fun (c, k) => !s.isMidway k c

/-- The state once the next request of a call has been answered. -/
def advance (s : Chronicle n) (k : Nat) (c : Errand n) : Chronicle n :=
  match c.rest with
  | .done _ => s
  | .ask r next =>
    let d : Deed n := ⟨k, c.place, r, s.fleet⟩
    ⟨d.after, s.errands.set k { c with rest := next d.exchange.reply }, d :: s.log⟩

/-- What comes next. -/
def beat (s : Chronicle n) : Beat n → Chronicle n
  | .start i t => { s with errands := s.errands ++ [⟨i, t, t.service.run⟩] }
  | .step k =>
    match s.errands[k]? with
    | some c => s.advance k c
    | none => s
  | .clocks wall span =>
    if s.atRest then
      { s with fleet := { s.fleet with wall, clock := s.fleet.clock.after span } }
    else s
  | .incident e _ => { s with fleet := s.fleet.befall e }

/-- The state after a run. -/
def run (s : Chronicle n) (beats : List (Beat n)) : Chronicle n := beats.foldl beat s

@[simp] theorem run_nil (s : Chronicle n) : s.run [] = s := rfl

@[simp] theorem run_cons (s : Chronicle n) (b : Beat n) (beats : List (Beat n)) :
    s.run (b :: beats) = (s.beat b).run beats := rfl

theorem run_append (s : Chronicle n) (before after : List (Beat n)) :
    s.run (before ++ after) = (s.run before).run after := List.foldl_append

/-- Whether a call is about to ask a request. -/
def Asks (s : Chronicle n) (k : Nat) (c : Errand n) (r : Request)
    (next : r.Reply → Program (Except AuthError c.task.Answer)) : Prop :=
  s.errands[k]? = some c ∧ c.rest = .ask r next

theorem beat_step {r : Request} {next : r.Reply → Program (Except AuthError c.task.Answer)}
    (h : s.Asks k c r next) :
    s.beat (.step k) = ⟨(answer c.place r s.fleet).2,
      s.errands.set k { c with rest := next (answer c.place r s.fleet).1 },
      ⟨k, c.place, r, s.fleet⟩ :: s.log⟩ := by
  simp only [beat, h.1, advance]
  rw [h.2]
  rfl

/-- A call starts or asks, clocks move while no call is amid a step, an incident happens, or
nothing. -/
theorem beat_cases (s : Chronicle n) (b : Beat n) :
    (∃ i t, b = .start i t) ∨ (∃ k c r next, b = .step k ∧ s.Asks (n := n) k c r next) ∨
      (∃ wall span, b = .clocks wall span ∧ s.atRest = true) ∨
      (∃ e he, b = .incident e he) ∨ s.beat b = s := by
  cases b with
  | start i t => exact Or.inl ⟨i, t, rfl⟩
  | step k =>
    refine Or.inr ?_
    cases hcall : s.errands[k]? with
    | none =>
      refine Or.inr (Or.inr (Or.inr ?_))
      simp only [beat, hcall]
    | some c =>
      cases hrest : c.rest with
      | done result =>
        refine Or.inr (Or.inr (Or.inr ?_))
        simp only [beat, hcall, advance, hrest]
      | ask r next => exact Or.inl ⟨k, c, r, next, rfl, hcall, hrest⟩
  | clocks wall span =>
    refine Or.inr (Or.inr ?_)
    cases hrest : s.atRest with
    | true => exact Or.inl ⟨wall, span, rfl, rfl⟩
    | false =>
      refine Or.inr (Or.inr ?_)
      simp [beat, hrest]
  | incident e he => exact Or.inr (Or.inr (Or.inr (Or.inl ⟨e, he, rfl⟩)))

end Chronicle

/-! ## What is cached, and by whom -/

variable {log : List (Deed n)} {f : MemoryFleet n} {user : UserId} {s : Session}

/-- Whether a deed has cached a session of a user. -/
def Deed.Caches (d : Deed n) (user : UserId) (s : Session) : Prop :=
  ∃ ttl, d.request = .cache (.store .session (Key.session user) s ttl)

/-- Whether a session that is cached until a deadline can be traced back to a deed that has cached
it, for no longer than that allows. -/
def Traced (log : List (Deed n)) (user : UserId) (s : Session) (deadline : Option Moment) : Prop :=
  ∃ d ∈ log, d.Caches user s ∧
    ∃ t, deadline = some t ∧ t ≤ d.before.clock.after Key.sessionLifetime

/-- Whether what a fleet has on record and caches as sessions is as its past says. -/
structure Accounted (log : List (Deed n)) (f : MemoryFleet n) : Prop where
  coherent : f.origin.sessions.Coherent
  past : ∀ d ∈ log, d.before.clock ≤ f.clock
  cached : ∀ (j : Fin n) user, f.Holds (.under (Key.session user) .session (Traced log user)) j

theorem Fleet.Fresh.accounted (h : f.Fresh) : Accounted [] f where
  coherent := h.coherent
  past d hd := by cases hd
  cached j user := h.holds _ j

theorem Traced.cons {deadline : Option Moment} (h : Traced log user s deadline) (d : Deed n) :
    Traced (d :: log) user s deadline := by
  obtain ⟨d', hd', hrest⟩ := h
  exact ⟨d', List.mem_cons_of_mem d hd', hrest⟩

theorem shortens_traced :
    (EntryRule.under (Key.session user) .session (Traced log user)).Shortens := by
  refine EntryRule.shortens_under fun s deadline sooner htraced hsooner => ?_
  obtain ⟨d, hd, hcaches, t, rfl, ht⟩ := htraced
  exact ⟨d, hd, hcaches, sooner, rfl, Nat.le_trans (hsooner t rfl) ht⟩

/-- A request of the session service leaves everything accounted for, once it is on record. -/
theorem Accounted.answer {d : Deed n} {h : History} (hf : Accounted log d.before)
    (hmanners : Sessions.manners h d.request) : Accounted (d :: log) d.after := by
  obtain ⟨k, i, r, f⟩ := d
  refine ⟨?_, fun d' hd' => ?_, fun j user => ?_⟩
  · exact coherent_answer hf.coherent i r
  · show d'.before.clock ≤ (Fleet.answer i r f).2.clock
    rw [answer_clock]
    rcases List.mem_cons.1 hd' with rfl | hold
    · exact Nat.le_refl _
    · exact hf.past d' hold
  · have hheld : f.Holds (.under (Key.session user) .session
        (Traced (⟨k, i, r, f⟩ :: log) user)) j :=
      (hf.cached j user).imp fun _ _ htraced => htraced.cons _
    refine hheld.answer shortens_traced fun c hc => ?_
    subst hc
    cases c with
    | store kind key value ttl =>
      cases kind with
      | session =>
        obtain ⟨rfl, ⟨t, rfl, ht⟩, -⟩ := hmanners
        refine keeps_under_store .session fun hkey => ?_
        refine ⟨_, List.mem_cons_self .., ⟨some t, by rw [hkey]⟩, _, rfl, ?_⟩
        simp only [Moment.le_def, Moment.expiry, Moment.nanos_after, Duration.nanos_min,
          Option.getD_some]
        rw [Duration.le_def] at ht
        omega
      | _ => exact absurd hmanners id
    | setString key value ttl => exact absurd hmanners id
    | _ => trivial

theorem Accounted.befall (hf : Accounted log f) (e : Incident n) : Accounted log (f.befall e) where
  coherent := by
    rw [befall_origin]
    exact hf.coherent
  past d hd := Nat.le_trans (hf.past d hd) (befall_clock f e)
  cached j user := (hf.cached j user).befall e

/-- Moving the clocks makes nothing that is cached last longer. -/
theorem Accounted.clocks (hf : Accounted log f) (wall : Instant) (span : Duration) :
    Accounted log { f with wall, clock := f.clock.after span } where
  coherent := hf.coherent
  past d hd := Nat.le_trans (hf.past d hd) (Nat.le_add_right ..)
  cached j user := ⟨(hf.cached j user).shared, (hf.cached j user).near⟩

/-! ## Every deed is in order -/

namespace Deed

/-- Whether a deed was in order after the earlier ones: the fleet was, the call kept its manners,
and where it was amid a step the wall clock had not moved since its last deed. -/
structure Lawful (d : Deed n) (earlier : List (Deed n)) : Prop where
  accounted : Accounted earlier d.before
  mannered : Sessions.manners (history earlier d.call) d.request
  paced : (history earlier d.call).pace ≠ .between →
    ∀ last ∈ (ofCall earlier d.call).head?, last.before.wall = d.before.wall

/-- Whether all deeds were in order. -/
def InOrder (log : List (Deed n)) : Prop :=
  ∀ later d earlier, log = later ++ d :: earlier → d.Lawful earlier

theorem InOrder.cons {d : Deed n} (h : InOrder log) (hd : d.Lawful log) : InOrder (d :: log) := by
  intro later d' earlier hlog
  cases later with
  | nil =>
    obtain ⟨rfl, rfl⟩ := List.cons.inj hlog
    exact hd
  | cons d'' later => exact h later d' earlier (List.cons.inj hlog).2

/-- What had happened before was in order as well. -/
theorem InOrder.of_append {later : List (Deed n)} (h : InOrder (later ++ log)) : InOrder log := by
  intro later' d earlier hlog
  refine h (later ++ later') d earlier ?_
  rw [hlog, List.append_assoc]

theorem InOrder.tail {d : Deed n} (h : InOrder (d :: log)) : InOrder log :=
  InOrder.of_append (List.singleton_append.symm ▸ h)

theorem InOrder.lawful {d : Deed n} (h : InOrder (d :: log)) : d.Lawful log := h [] d log rfl

end Deed

namespace Chronicle

variable {s : Chronicle n} {k : Nat} {c : Errand n}

/-- What holds however the requests of calls are interleaved. -/
structure Sound (s : Chronicle n) : Prop where
  accounted : Accounted s.log s.fleet
  inOrder : InOrder s.log
  numbered : ∀ d ∈ s.log, d.call < s.errands.length
  heeds : ∀ (k : Nat) (c : Errand n), s.errands[k]? = some c →
    Program.Obeys Sessions.manners c.task.Reason (history s.log k) c.rest
  paced : ∀ (k : Nat) (c : Errand n), s.errands[k]? = some c → s.isMidway k c = true →
    ∀ last ∈ (ofCall s.log k).head?, last.before.wall = s.fleet.wall

theorem sound_begin {f : MemoryFleet n} (hf : f.Fresh) : (begin f).Sound where
  accounted := hf.accounted
  inOrder later d earlier hlog := by cases later <;> cases hlog
  numbered d hd := by cases hd
  heeds k c hc := by cases hc
  paced k c hc := by cases hc

theorem isMidway_of_atRest (h : s.atRest = true) (hc : s.errands[k]? = some c) :
    s.isMidway k c = false := by
  have hall := List.all_eq_true.1 h (c, k) (List.mk_mem_zipIdx_iff_getElem?.2 hc)
  simpa using hall

/-- A new call has not done anything yet. -/
theorem Sound.start (h : s.Sound) (i : Fin n) (t : SessionTask) :
    (s.beat (.start i t)).Sound := by
  have hnone : ofCall s.log s.errands.length = [] := by
    refine List.filter_eq_nil_iff.2 fun d hd => ?_
    have hlt := h.numbered d hd
    rw [decide_eq_true_eq]
    omega
  refine ⟨h.accounted, h.inOrder, fun d hd => ?_, fun k c hc => ?_, fun k c hc hmidway => ?_⟩
  · have hlt := h.numbered d hd
    show d.call < (s.errands ++ [_]).length
    rw [List.length_append]
    omega
  · rcases getElem?_of_concat hc with ⟨rfl, rfl⟩ | hold
    · exact t.heeds _
    · exact h.heeds k c hold
  · rcases getElem?_of_concat hc with ⟨rfl, rfl⟩ | hold
    · intro last hlast
      have hhead : last ∈ (ofCall s.log s.errands.length).head? := hlast
      rw [hnone] at hhead
      cases hhead
    · exact h.paced k c hold hmidway

section

variable {r : Request} {next : r.Reply → Program (Except AuthError c.task.Answer)}

/-- What a call is about to do is in order, and it goes on with its manners afterwards. -/
theorem Sound.lawful (h : s.Sound) (hasks : s.Asks k c r next) :
    (⟨k, c.place, r, s.fleet⟩ : Deed n).Lawful s.log ∧
      ∀ reply, Program.Obeys Sessions.manners c.task.Reason (⟨r, reply⟩ :: history s.log k)
        (next reply) := by
  have hobeys := h.heeds k c hasks.1
  rw [hasks.2] at hobeys
  refine ⟨⟨h.accounted, hobeys.1, fun hpace => h.paced k c hasks.1 ?_⟩, hobeys.2⟩
  rw [isMidway, hasks.2]
  exact decide_eq_true hpace

/-- A call goes on with what it was answered, and the others do not notice. -/
theorem Sound.step (h : s.Sound) (hasks : s.Asks k c r next) : (s.beat (.step k)).Sound := by
  obtain ⟨hlawful, hrest⟩ := h.lawful hasks
  rw [beat_step hasks]
  refine ⟨hlawful.accounted.answer hlawful.mannered, h.inOrder.cons hlawful, fun d hd => ?_,
    fun m c' hc' => ?_, fun m c' hc' hmidway => ?_⟩
  · show d.call < (s.errands.set k _).length
    rw [List.length_set]
    rcases List.mem_cons.1 hd with rfl | hold
    · exact (List.getElem?_eq_some_iff.1 hasks.1).1
    · exact h.numbered d hold
  · show Program.Obeys Sessions.manners c'.task.Reason (history (_ :: s.log) m) c'.rest
    rcases getElem?_of_set hc' with ⟨rfl, rfl⟩ | ⟨hne, hold⟩
    · rw [history_cons_self ⟨k, c.place, r, s.fleet⟩ s.log]
      exact hrest _
    · rw [history_cons_of_ne hne]
      exact h.heeds m c' hold
  · show ∀ last ∈ (ofCall (_ :: s.log) m).head?, last.before.wall = (answer _ _ _).2.wall
    rw [answer_wall]
    rcases getElem?_of_set hc' with ⟨rfl, rfl⟩ | ⟨hne, hold⟩
    · -- The latest deed of the call is the one that has just been done.
      intro last hlast
      obtain rfl : _ = last := by simpa [ofCall] using hlast
      rfl
    · have hsame : s.isMidway m c' = true := by
        rw [← hmidway]
        unfold isMidway
        rw [history_cons_of_ne hne]
      rw [ofCall_cons_of_ne hne]
      exact h.paced m c' hold hsame

end

theorem Sound.clocks (h : s.Sound) (hrest : s.atRest = true) (wall : Instant) (span : Duration) :
    (s.beat (.clocks wall span)).Sound := by
  have hbeat : s.beat (.clocks wall span) =
      { s with fleet := { s.fleet with wall, clock := s.fleet.clock.after span } } :=
    if_pos hrest
  rw [hbeat]
  refine ⟨h.accounted.clocks wall span, h.inOrder, h.numbered, h.heeds, fun k c hc hmidway => ?_⟩
  -- The clocks only move while no call would notice.
  have hsame : s.isMidway k c = true := hmidway
  rw [isMidway_of_atRest hrest hc] at hsame
  cases hsame

theorem Sound.incident (h : s.Sound) (e : Incident n) (he : e.Timeless) :
    (s.beat (.incident e he)).Sound := by
  refine ⟨h.accounted.befall e, h.inOrder, h.numbered, h.heeds, fun k c hc hmidway => ?_⟩
  show ∀ last ∈ (ofCall s.log k).head?, last.before.wall = (s.fleet.befall e).wall
  rw [befall_timeless _ he]
  exact h.paced k c hc hmidway

theorem Sound.run (h : s.Sound) (beats : List (Beat n)) : (s.run beats).Sound := by
  induction beats generalizing s with
  | nil => exact h
  | cons b beats ih =>
    refine ih ?_
    rcases beat_cases s b with ⟨i, t, rfl⟩ | ⟨k, c, r, next, rfl, hasks⟩ |
      ⟨wall, span, rfl, hrest⟩ | ⟨e, he, rfl⟩ | hidle
    · exact h.start i t
    · exact h.step hasks
    · exact h.clocks hrest wall span
    · exact h.incident e he
    · rw [hidle]
      exact h

end Chronicle

end Bearer
