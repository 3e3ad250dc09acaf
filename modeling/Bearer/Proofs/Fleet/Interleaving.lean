/-
  Operations between each other.

  Calls of operations are under way at the same time.  Each request of a call is
  one step; the steps of all calls may be taken in any order, and events may
  happen between any two.  Whatever the order, every call keeps the rules of
  conduct, and what it remembers of its exchanges is what the fleet answered at
  the steps where it asked.

  Main statements: `turn_cases`, the one list of what a turn can do,
  `Sound.run`, and `asked_of_mem`.
-/
import Bearer.Proofs.Fleet.Run

namespace Bearer

open Fleet

/-- A call of an operation at an instance, as far as it has come. -/
structure Call (n : Nat) where
  place : Fin n
  operation : Operation
  history : History
  rest : Program operation.Result

/-- A fleet and the calls made of it, the first one first. -/
structure Parallel (n : Nat) where
  fleet : MemoryFleet n
  calls : List (Call n)

/-- One turn of a run. -/
inductive Turn (n : Nat) where
  /-- An operation is called at an instance. -/
  | start (i : Fin n) (o : Operation)
  /-- The next request of a call is answered, if it has one. -/
  | step (k : Nat)
  | event (e : Event n)
  deriving DecidableEq, Repr

variable {n : Nat}

/-- What is in a list with one more at its end is that one, or was there before. -/
theorem getElem?_of_concat {α : Type} {l : List α} {x y : α} {k : Nat}
    (h : (l ++ [x])[k]? = some y) : l.length = k ∧ y = x ∨ l[k]? = some y := by
  rcases Nat.lt_trichotomy k l.length with hlt | heq | hgt
  · rw [List.getElem?_append_left hlt] at h
    exact Or.inr h
  · subst heq
    rw [List.getElem?_concat_length] at h
    exact Or.inl ⟨rfl, (Option.some.inj h).symm⟩
  · rw [List.getElem?_eq_none (by simp; omega)] at h
    cases h

/-- What is in a list of which one has been replaced is the new one, or was there before. -/
theorem getElem?_of_set {α : Type} {l : List α} {x y : α} {k m : Nat}
    (h : (l.set m x)[k]? = some y) : m = k ∧ y = x ∨ m ≠ k ∧ l[k]? = some y := by
  by_cases heq : m = k
  · subst heq
    obtain ⟨hlength, -⟩ := List.getElem?_eq_some_iff.1 h
    rw [List.length_set] at hlength
    rw [List.getElem?_set_self hlength] at h
    exact Or.inl ⟨rfl, (Option.some.inj h).symm⟩
  · rw [List.getElem?_set_ne heq] at h
    exact Or.inr ⟨heq, h⟩

/-- Whether a call has ended. -/
def Call.isDone (c : Call n) : Bool :=
  match c.rest with
  | .done _ => true
  | .ask .. => false

/-- The call once a request has been answered. -/
def Call.answered (c : Call n) (r : Request) (reply : r.Reply)
    (next : r.Reply → Program c.operation.Result) : Call n :=
  { c with history := ⟨r, reply⟩ :: c.history, rest := next reply }

/-- The call once it has come to its end with nothing in between. -/
def Call.ended (c : Call n) (f : MemoryFleet n) : Call n :=
  { c with
    history := c.rest.history (answer c.place) f c.history
    rest := .done (c.rest.run (answer c.place) f).1 }

namespace Parallel

/-- A fleet of which nothing has been called yet. -/
def idle (f : MemoryFleet n) : Parallel n := ⟨f, []⟩

/-- The state once the next request of a call has been answered. -/
def advance (s : Parallel n) (k : Nat) (c : Call n) : Parallel n :=
  match c.rest with
  | .done _ => s
  | .ask r next =>
    ⟨(answer c.place r s.fleet).2, s.calls.set k (c.answered r (answer c.place r s.fleet).1 next)⟩

/-- The state after a turn. -/
def turn (s : Parallel n) : Turn n → Parallel n
  | .start i o =>
    { s with calls := s.calls ++ [⟨i, o, [], (o.service (s.fleet.issuer i)).run⟩] }
  | .step k =>
    match s.calls[k]? with
    | some c => s.advance k c
    | none => s
  | .event e => { s with fleet := s.fleet.happen e }

/-- The state after a run. -/
def run (s : Parallel n) (turns : List (Turn n)) : Parallel n := turns.foldl turn s

@[simp] theorem run_nil (s : Parallel n) : s.run [] = s := rfl

@[simp] theorem run_cons (s : Parallel n) (t : Turn n) (turns : List (Turn n)) :
    s.run (t :: turns) = (s.turn t).run turns := rfl

theorem run_append (s : Parallel n) (before after : List (Turn n)) :
    s.run (before ++ after) = (s.run before).run after := List.foldl_append

/-- Whether a call is about to ask a request. -/
def Asks (s : Parallel n) (k : Nat) (c : Call n) (r : Request)
    (next : r.Reply → Program c.operation.Result) : Prop :=
  s.calls[k]? = some c ∧ c.rest = .ask r next

variable {s : Parallel n} {t : Turn n} {k : Nat} {c : Call n} {r : Request}
variable {next : r.Reply → Program c.operation.Result}

/-! ## What a turn can do -/

theorem turn_step (h : s.Asks k c r next) :
    s.turn (.step k) = ⟨(answer c.place r s.fleet).2,
      s.calls.set k (c.answered r (answer c.place r s.fleet).1 next)⟩ := by
  simp only [turn, h.1, advance]
  rw [h.2]

/-- A turn starts a call, lets one ask, lets an event happen, or does nothing. -/
theorem turn_cases (s : Parallel n) (t : Turn n) :
    (∃ i o, t = .start i o) ∨ (∃ e, t = .event e) ∨
      (∃ k c r next, t = .step k ∧ s.Asks (n := n) k c r next) ∨ s.turn t = s := by
  cases t with
  | start i o => exact Or.inl ⟨i, o, rfl⟩
  | event e => exact Or.inr (Or.inl ⟨e, rfl⟩)
  | step k =>
    refine Or.inr (Or.inr ?_)
    cases hcall : s.calls[k]? with
    | none => exact Or.inr (by simp only [turn, hcall])
    | some c =>
      cases hrest : c.rest with
      | done result => exact Or.inr (by simp only [turn, hcall, advance, hrest])
      | ask r next => exact Or.inl ⟨k, c, r, next, rfl, hcall, hrest⟩

/-- A call after a turn is new, the one that asked, or as it was. -/
theorem call_of_turn {c' : Call n} (h : (s.turn t).calls[k]? = some c') :
    (s.calls.length = k ∧ ∃ i o, t = .start i o ∧
      c' = ⟨i, o, [], (o.service (s.fleet.issuer i)).run⟩) ∨
    (∃ c r next, t = .step k ∧ s.Asks k c r next ∧
      c' = c.answered r (answer c.place r s.fleet).1 next) ∨
    s.calls[k]? = some c' := by
  rcases turn_cases s t with ⟨i, o, rfl⟩ | ⟨e, rfl⟩ | ⟨m, c, r, next, rfl, hasks⟩ | hidle
  · rcases getElem?_of_concat h with ⟨rfl, rfl⟩ | hold
    · exact Or.inl ⟨rfl, i, o, rfl, rfl⟩
    · exact Or.inr (Or.inr hold)
  · exact Or.inr (Or.inr h)
  · rw [turn_step hasks] at h
    rcases getElem?_of_set h with ⟨rfl, rfl⟩ | ⟨-, hold⟩
    · exact Or.inr (Or.inl ⟨c, r, next, rfl, hasks, rfl⟩)
    · exact Or.inr (Or.inr hold)
  · rw [hidle] at h
    exact Or.inr (Or.inr h)

/-- What a call remembers, it goes on remembering. -/
theorem exists_call_turn (h : s.calls[k]? = some c) (t : Turn n) :
    ∃ c', (s.turn t).calls[k]? = some c' ∧ ∀ e ∈ c.history, e ∈ c'.history := by
  have hlength : k < s.calls.length := (List.getElem?_eq_some_iff.1 h).1
  rcases turn_cases s t with ⟨i, o, rfl⟩ | ⟨e, rfl⟩ | ⟨m, c', r, next, rfl, hasks⟩ | hidle
  · exact ⟨c, (List.getElem?_append_left hlength).trans h, fun e he => he⟩
  · exact ⟨c, h, fun e he => he⟩
  · rw [turn_step hasks]
    by_cases hm : m = k
    · subst hm
      obtain rfl := Option.some.inj (h.symm.trans hasks.1)
      exact ⟨_, List.getElem?_set_self hlength, fun e he => List.mem_cons_of_mem _ he⟩
    · exact ⟨c, (List.getElem?_set_ne hm).trans h, fun e he => he⟩
  · rw [hidle]
    exact ⟨c, h, fun e he => he⟩

/-- Issuers do not change. -/
theorem turn_issuer (s : Parallel n) (t : Turn n) (i : Fin n) :
    (s.turn t).fleet.issuer i = s.fleet.issuer i := by
  rcases turn_cases s t with ⟨i, o, rfl⟩ | ⟨e, rfl⟩ | ⟨k, c, r, next, rfl, hasks⟩ | hidle
  · rfl
  · exact happen_issuer ..
  · rw [turn_step hasks]
    exact answer_issuer ..
  · rw [hidle]

theorem run_issuer (s : Parallel n) (turns : List (Turn n)) (i : Fin n) :
    (s.run turns).fleet.issuer i = s.fleet.issuer i := by
  induction turns generalizing s with
  | nil => rfl
  | cons t turns ih => rw [run_cons, ih, turn_issuer]

/-- Whether an exchange is one of some call. -/
def Said (s : Parallel n) (x : Exchange) : Prop :=
  ∃ (k : Nat) (c : Call n), s.calls[k]? = some c ∧ x ∈ c.history

theorem Asks.said (hasks : s.Asks k c r next) : ∀ x ∈ c.history, s.Said x :=
  fun _ hx => ⟨k, c, hasks.1, hx⟩

theorem not_said_idle (f : MemoryFleet n) (x : Exchange) : ¬ (idle f).Said x := by
  rintro ⟨k, c, hc, -⟩
  cases hc

/-- A step adds one exchange. -/
theorem said_step_iff (hasks : s.Asks k c r next) (x : Exchange) :
    (s.turn (.step k)).Said x ↔ x = ⟨r, (answer c.place r s.fleet).1⟩ ∨ s.Said x := by
  have hlength : k < s.calls.length := (List.getElem?_eq_some_iff.1 hasks.1).1
  constructor
  · rintro ⟨m, c', hc', hx⟩
    rw [turn_step hasks] at hc'
    rcases getElem?_of_set hc' with ⟨rfl, rfl⟩ | ⟨-, hold⟩
    · exact (List.mem_cons.1 hx).imp id fun hx => ⟨k, c, hasks.1, hx⟩
    · exact Or.inr ⟨m, c', hold, hx⟩
  · rintro (rfl | ⟨m, c', hc', hx⟩)
    · rw [turn_step hasks]
      exact ⟨k, _, List.getElem?_set_self hlength, List.mem_cons_self ..⟩
    · obtain ⟨c'', hc'', hgrown⟩ := exists_call_turn hc' (.step k)
      exact ⟨m, c'', hc'', hgrown x hx⟩

/-- A call that begins has not exchanged anything yet. -/
theorem said_start_iff (i : Fin n) (o : Operation) (x : Exchange) :
    (s.turn (.start i o)).Said x ↔ s.Said x := by
  constructor
  · rintro ⟨m, c', hc', hx⟩
    rcases getElem?_of_concat hc' with ⟨-, rfl⟩ | hold
    · cases hx
    · exact ⟨m, c', hold, hx⟩
  · rintro ⟨m, c', hc', hx⟩
    obtain ⟨c'', hc'', hgrown⟩ := exists_call_turn hc' (.start i o)
    exact ⟨m, c'', hc'', hgrown x hx⟩

/-- What every request and every event keep, a run keeps. -/
theorem run_keeps {P : MemoryFleet n → Prop} (step : ∀ f i r, P f → P (answer i r f).2)
    (event : ∀ f e, P f → P (f.happen e)) (h : P s.fleet) (turns : List (Turn n)) :
    P (s.run turns).fleet := by
  induction turns generalizing s with
  | nil => exact h
  | cons t turns ih =>
    refine ih ?_
    rcases turn_cases s t with ⟨i, o, rfl⟩ | ⟨e, rfl⟩ | ⟨k, c, r, next, rfl, hasks⟩ | hidle
    · exact h
    · exact event s.fleet e h
    · rw [turn_step hasks]
      exact step s.fleet c.place r h
    · rw [hidle]
      exact h

/-! ## Running to the end -/

/-- A call can go on to its end with nothing in between. -/
theorem run_steps (hc : s.calls[k]? = some c) : ∃ m,
    s.run (List.replicate m (.step k)) = ⟨(c.rest.run (answer c.place) s.fleet).2,
      s.calls.set k (c.ended s.fleet)⟩ := by
  obtain ⟨i, o, h, rest⟩ := c
  have hlength : k < s.calls.length := (List.getElem?_eq_some_iff.1 hc).1
  -- By induction on what is left of the call.
  induction rest generalizing s h with
  | done result =>
    refine ⟨0, ?_⟩
    have hset : s.calls.set k ⟨i, o, h, .done result⟩ = s.calls := by
      rw [← Option.some.inj ((List.getElem?_eq_getElem hlength).symm.trans hc)]
      exact List.set_getElem_self hlength
    exact congrArg (Parallel.mk s.fleet) hset.symm
  | ask r next ih =>
    have hasks : s.Asks k ⟨i, o, h, .ask r next⟩ r next := ⟨hc, rfl⟩
    have hset : (s.turn (.step k)).calls[k]? =
        some ⟨i, o, ⟨r, (answer i r s.fleet).1⟩ :: h, next (answer i r s.fleet).1⟩ := by
      rw [turn_step hasks]
      exact List.getElem?_set_self hlength
    obtain ⟨m, hm⟩ := ih _ _ hset (by rw [turn_step hasks]; simpa using hlength)
    refine ⟨m + 1, ?_⟩
    rw [List.replicate_succ, run_cons, hm, turn_step hasks]
    dsimp only
    rw [List.set_set]
    rfl

/-- What an operation does from beginning to end, its call does if no other one comes between. -/
theorem run_alone (f : MemoryFleet n) (i : Fin n) (o : Operation) : ∃ m,
    (idle f).run (.start i o :: List.replicate m (.step 0)) =
      ⟨(f.execute i o).2, [⟨i, o, f.history i o, .done (f.execute i o).1⟩]⟩ :=
  run_steps (s := (idle f).turn (.start i o)) (k := 0) rfl

/-- Steps begin no calls. -/
theorem length_steps (s : Parallel n) (steps : List Nat) :
    (s.run (steps.map .step)).calls.length = s.calls.length := by
  induction steps generalizing s with
  | nil => rfl
  | cons k steps ih =>
    rw [List.map_cons, run_cons, ih]
    rcases turn_cases s (.step k) with ⟨i, o, ht⟩ | ⟨e, ht⟩ | ⟨m, c, r, next, ht, hasks⟩ | hidle
    · cases ht
    · cases ht
    · rw [ht, turn_step hasks, List.length_set]
    · rw [hidle]

/-- Every run can go on until all calls have ended. -/
theorem exists_ended (s : Parallel n) :
    ∃ steps : List Nat, ∀ c ∈ (s.run (steps.map .step)).calls, c.isDone = true := by
  -- The calls are brought to their end one after the other.
  have hfirst : ∀ m ≤ s.calls.length, ∃ steps : List Nat, ∀ k < m, ∀ c,
      (s.run (steps.map .step)).calls[k]? = some c → c.isDone = true := by
    intro m
    induction m with
    | zero => exact fun _ => ⟨[], by simp⟩
    | succ m ih =>
      intro hm
      obtain ⟨steps, hdone⟩ := ih (by omega)
      have hlength := s.length_steps steps
      obtain ⟨c, hc⟩ : ∃ c, (s.run (steps.map .step)).calls[m]? = some c :=
        ⟨_, List.getElem?_eq_getElem (by omega)⟩
      obtain ⟨l, hl⟩ := run_steps hc
      refine ⟨steps ++ List.replicate l m, ?_⟩
      rw [List.map_append, List.map_replicate, run_append, hl]
      intro k hk c' hc'
      rcases getElem?_of_set hc' with ⟨-, rfl⟩ | ⟨hne, hold⟩
      · rfl
      · exact hdone k (by omega) c' hold
  obtain ⟨steps, hdone⟩ := hfirst _ (Nat.le_refl _)
  refine ⟨steps, fun c hc => ?_⟩
  obtain ⟨k, hk⟩ := List.mem_iff_getElem?.1 hc
  have hlength := (List.getElem?_eq_some_iff.1 hk).1
  rw [length_steps] at hlength
  exact hdone k hlength c hk

/-! ## The rules of conduct -/

/-- Whether every call keeps the rules of its operation from here on, and ends as they say. -/
def Abides (manners : Issuer → Operation → Manners)
    (post : Issuer → (o : Operation) → History → o.Result → Prop) (s : Parallel n) : Prop :=
  ∀ (k : Nat) (c : Call n), s.calls[k]? = some c →
    Program.Obeys (manners (s.fleet.issuer c.place) c.operation)
      (post (s.fleet.issuer c.place) c.operation) c.history c.rest

section

variable {manners : Issuer → Operation → Manners}
variable {post : Issuer → (o : Operation) → History → o.Result → Prop}

theorem abides_idle (f : MemoryFleet n) : (idle f).Abides manners post := by
  intro k c hc
  cases hc

/-- Rules that all operations keep, calls keep at every turn. -/
theorem Abides.turn (h : s.Abides manners post)
    (hrules : ∀ issuer o, Service.Obeys (manners issuer o) (post issuer o) [] (o.service issuer))
    (t : Turn n) : (s.turn t).Abides manners post := by
  intro k c' hc'
  rw [turn_issuer]
  rcases call_of_turn hc' with ⟨-, i, o, -, rfl⟩ | ⟨c, r, next, -, hasks, rfl⟩ | hsame
  · exact hrules _ o
  · have hobeys := h k c hasks.1
    rw [hasks.2] at hobeys
    exact hobeys.2 _
  · exact h k c' hsame

/-- What a call is about to ask, its rules allow. -/
theorem Abides.asks (h : s.Abides manners post) (hasks : s.Asks k c r next) :
    manners (s.fleet.issuer c.place) c.operation c.history r := by
  have hobeys := h k c hasks.1
  rw [hasks.2] at hobeys
  exact hobeys.1

/-- A call that has ended has ended as its rules say. -/
theorem Abides.ended (h : s.Abides manners post) (hc : s.calls[k]? = some c)
    {result : c.operation.Result} (hdone : c.rest = .done result) :
    post (s.fleet.issuer c.place) c.operation c.history result := by
  have hobeys := h k c hc
  rw [hdone] at hobeys
  exact hobeys

end

/-- Whether every call keeps the rules of conduct from here on. -/
def Sound (s : Parallel n) : Prop :=
  ∀ (k : Nat) (c : Call n), s.calls[k]? = some c →
    Program.Obeys (Bearer.conduct (s.fleet.issuer c.place) c.operation)
      (c.operation.Reason (s.fleet.issuer c.place)) c.history c.rest

theorem sound_idle (f : MemoryFleet n) : (idle f).Sound := by
  intro k c hc
  cases hc

theorem Sound.turn (h : s.Sound) (t : Turn n) : (s.turn t).Sound :=
  Abides.turn h Operation.obeys t

theorem Sound.run (h : s.Sound) (turns : List (Turn n)) : (s.run turns).Sound := by
  induction turns generalizing s with
  | nil => exact h
  | cons t turns ih => exact ih (h.turn t)

/-- What a call is about to ask, it may ask. -/
theorem Sound.conduct (h : s.Sound) (hasks : s.Asks k c r next) :
    Bearer.conduct (s.fleet.issuer c.place) c.operation c.history r :=
  Abides.asks h hasks

/-! ## Where calls and exchanges come from -/

/-- Every call was there before, or is started in the run. -/
theorem started_of_call (turns : List (Turn n)) (hc : (s.run turns).calls[k]? = some c) :
    (∃ c₀, s.calls[k]? = some c₀) ∨ ∃ i o, Turn.start i o ∈ turns := by
  induction turns generalizing s with
  | nil => exact Or.inl ⟨c, hc⟩
  | cons t turns ih =>
    rcases ih hc with ⟨c₁, hc₁⟩ | ⟨i, o, hmem⟩
    · rcases call_of_turn hc₁ with ⟨-, i, o, rfl, -⟩ | ⟨c₀, r, next, -, hasks, -⟩ | hsame
      · exact Or.inr ⟨i, o, List.mem_cons_self ..⟩
      · exact Or.inl ⟨c₀, hasks.1⟩
      · exact Or.inl ⟨c₁, hsame⟩
    · exact Or.inr ⟨i, o, List.mem_cons_of_mem _ hmem⟩

/-- Every exchange of a call is one that it began with, or has happened at a step of the call. -/
theorem asked_of_mem (turns : List (Turn n)) {e : Exchange}
    (hc : (s.run turns).calls[k]? = some c) (he : e ∈ c.history) :
    (∃ c₀, s.calls[k]? = some c₀ ∧ c₀.place = c.place ∧ c₀.operation = c.operation ∧
      e ∈ c₀.history) ∨
    ∃ before after c₀ next, turns = before ++ .step k :: after ∧
      (s.run before).Asks k c₀ e.request next ∧ c₀.place = c.place ∧
      c₀.operation = c.operation ∧
      e.reply = (answer c₀.place e.request (s.run before).fleet).1 := by
  -- By induction on the run: the first turn is the one that asked, or it was a later one.
  induction turns generalizing s with
  | nil => exact Or.inl ⟨c, hc, rfl, rfl, he⟩
  | cons t turns ih =>
    rcases ih hc with ⟨c₁, hc₁, hplace, hoperation, he₁⟩ |
      ⟨before, after, c₀, next, rfl, hasks, hplace, hoperation, hreply⟩
    · rcases call_of_turn hc₁ with ⟨-, i, o, -, rfl⟩ | ⟨c₀, r, next, rfl, hasks, rfl⟩ | hsame
      · cases he₁
      · rcases List.mem_cons.1 he₁ with rfl | he₀
        · exact Or.inr ⟨[], turns, c₀, next, rfl, hasks, hplace, hoperation, rfl⟩
        · exact Or.inl ⟨c₀, hasks.1, hplace, hoperation, he₀⟩
      · exact Or.inl ⟨c₁, hsame, hplace, hoperation, he₁⟩
    · exact Or.inr ⟨t :: before, after, c₀, next, rfl, hasks, hplace, hoperation, hreply⟩

end Parallel

end Bearer
