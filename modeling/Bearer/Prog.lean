/-
  Programs over calls.

  A service of this library never reads a clock, a store or a cache itself: it
  asks.  `Prog Call Reply α` is the tree of what it asks, one call at a time,
  with a continuation for every possible reply.  The same tree can be run
  against a whole fleet, against a scripted peer, or one call at a time between
  the calls of other programs, which is how concurrent runs are described.

  Main statement: `run_bind`, running a sequence runs its parts in order.
-/

namespace Bearer

/-- A program that makes calls, learns the reply of each, and ends with an `α`. -/
inductive Prog (Call : Type) (Reply : Call → Type) (α : Type) : Type where
  /-- The program has ended. -/
  | done (value : α)
  /-- The program makes one call and goes on with its reply. -/
  | ask (call : Call) (next : Reply call → Prog Call Reply α)

namespace Prog

variable {Call : Type} {Reply : Call → Type} {α β γ σ : Type}

/-- Runs the first program and goes on with what it ended with. -/
def bind : Prog Call Reply α → (α → Prog Call Reply β) → Prog Call Reply β
  | done value, f => f value
  | ask call next, f => ask call fun reply => (next reply).bind f

instance : Monad (Prog Call Reply) where
  pure := done
  bind := bind

/-- The program that makes one call and ends with its reply. -/
def call (c : Call) : Prog Call Reply (Reply c) := ask c done

/-- Runs a program against a state that answers every call. -/
def run (answer : (c : Call) → σ → Reply c × σ) : Prog Call Reply α → σ → α × σ
  | done value, state => (value, state)
  | ask c next, state =>
    let answered := answer c state
    (next answered.1).run answer answered.2

/-! ## Equations -/

@[simp] theorem bind_done (value : α) (f : α → Prog Call Reply β) :
    (done value).bind f = f value := rfl

@[simp] theorem bind_ask (c : Call) (next : Reply c → Prog Call Reply α)
    (f : α → Prog Call Reply β) :
    (ask c next).bind f = ask c fun reply => (next reply).bind f := rfl

@[simp] theorem pure_eq_done (value : α) : (pure value : Prog Call Reply α) = done value := rfl

@[simp] theorem bind_eq_bind (p : Prog Call Reply α) (f : α → Prog Call Reply β) :
    (p >>= f) = p.bind f := rfl

theorem bind_done_right (p : Prog Call Reply α) : p.bind done = p := by
  induction p with
  | done => rfl
  | ask c next ih => simp [bind, ih]

theorem bind_assoc (p : Prog Call Reply α) (f : α → Prog Call Reply β)
    (g : β → Prog Call Reply γ) : (p.bind f).bind g = p.bind fun a => (f a).bind g := by
  induction p with
  | done => rfl
  | ask c next ih => simp [bind, ih]

instance : LawfulMonad (Prog Call Reply) :=
  LawfulMonad.mk' _ bind_done_right (fun _ _ => rfl) bind_assoc

@[simp] theorem run_done (answer : (c : Call) → σ → Reply c × σ) (value : α) (state : σ) :
    (done value : Prog Call Reply α).run answer state = (value, state) := rfl

@[simp] theorem run_ask (answer : (c : Call) → σ → Reply c × σ) (c : Call)
    (next : Reply c → Prog Call Reply α) (state : σ) :
    (ask c next).run answer state = (next (answer c state).1).run answer (answer c state).2 := rfl

@[simp] theorem run_call (answer : (c : Call) → σ → Reply c × σ) (c : Call) (state : σ) :
    (call c : Prog Call Reply (Reply c)).run answer state = answer c state := rfl

/-- Running a sequence runs its parts in order. -/
theorem run_bind (answer : (c : Call) → σ → Reply c × σ) (p : Prog Call Reply α)
    (f : α → Prog Call Reply β) (state : σ) :
    (p.bind f).run answer state =
      (f (p.run answer state).1).run answer (p.run answer state).2 := by
  induction p generalizing state with
  | done => rfl
  | ask c next ih => simp [ih]

end Prog

end Bearer
