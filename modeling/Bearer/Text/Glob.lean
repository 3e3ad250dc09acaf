/-
  Glob patterns.

  A pattern is read from left to right as items: a star matches any run of
  characters, a question mark any one character, a backslash and a character
  that character, and any other character itself.  A backslash at the end
  matches nothing at all.

  Matching goes through pattern and text side by side.  A star is taken to match
  nothing at first; where the text does not go on as the pattern does, the last
  star takes one more character, and matching starts again behind it.  Stars
  before the last one are never taken up again.

  Main statement: `size_lt_of_step`, by which matching comes to an end although it
  goes back in the text.
-/

namespace Bearer.Text.Glob

/-- One item of a pattern. -/
inductive Item where
  | star
  | any
  | char (c : Char)
  /-- Matches nothing. -/
  | never
  deriving DecidableEq, Repr

/-- The items of a pattern. -/
def items : List Char → List Item
  | [] => []
  -- Nothing is left that the backslash could stand for.
  | ['\\'] => [.never]
  | '\\' :: c :: s => .char c :: items s
  | '*' :: s => .star :: items s
  | '?' :: s => .any :: items s
  | c :: s => .char c :: items s

/-! ## One turn -/

/-- What is left of a pattern when its first item, which is no star, has taken the character `c`. -/
def take? : List Char → Char → Option (List Char)
  | '*' :: _, _ => none
  | '?' :: p, _ => some p
  | '\\' :: d :: p, c => if d = c then some p else none
  | d :: p, c => if d ≠ '\\' ∧ d = c then some p else none
  | [], _ => none

theorem length_of_take? {p q : List Char} {c : Char} (h : take? p c = some q) :
    q.length < p.length := by
  unfold take? at h
  split at h
  · cases h
  · cases h
    simp
  · obtain ⟨-, hrest⟩ := Option.ite_none_right_eq_some.1 h
    cases hrest
    simp only [List.length_cons]
    omega
  · obtain ⟨-, hrest⟩ := Option.ite_none_right_eq_some.1 h
    cases hrest
    simp
  · cases h

/-- A star that has been read. -/
structure Star where
  /-- What follows it in the pattern. -/
  pattern : List Char
  /-- What is left of the text behind what it has taken. -/
  text : List Char
  deriving DecidableEq, Repr

/-- How far matching has come. -/
structure Position where
  /-- What is left of the pattern. -/
  pattern : List Char
  /-- What is left of the text. -/
  text : List Char
  /-- The last star that has been read. -/
  star : Option Star
  /-- Matching has gone on behind the star. -/
  behind : ∀ s ∈ star, pattern.length ≤ s.pattern.length ∧ text.length ≤ s.text.length
  deriving DecidableEq, Repr

namespace Position

/-- Where matching starts. -/
def start (pattern text : List Char) : Position := ⟨pattern, text, none, by simp⟩

/-- Where matching goes on behind a star. -/
def after (star : Star) : Position := ⟨star.pattern, star.text, some star, by simp⟩

/-- Where matching goes on after a mismatch: the last star takes one more character.  Without a
star, there is no match. -/
def retry (p : Position) : Position ⊕ Bool :=
  match p.star with
  | some star => .inl (after ⟨star.pattern, star.text.tail⟩)
  | none => .inr false

/-- One turn: where matching goes on, or the verdict. -/
def step (p : Position) : Position ⊕ Bool :=
  match htext : p.text with
  | [] => .inr (p.pattern.all (· = '*'))
  | c :: text =>
    match p.pattern with
    | '*' :: pattern => .inl (after ⟨pattern, c :: text⟩)
    | _ =>
      match htake : take? p.pattern c with
      | some pattern => .inl ⟨pattern, text, p.star, fun s hs => by
          have hbehind := p.behind s hs
          have hshorter := length_of_take? htake
          rw [htext, List.length_cons] at hbehind
          omega⟩
      | none => p.retry

/-- What a turn does: the text is over, a star is read, one character is taken, or nothing fits. -/
theorem step_cases (p : Position) :
    (p.text = [] ∧ p.step = .inr (p.pattern.all (· = '*'))) ∨
    (∃ pattern c text, p.pattern = '*' :: pattern ∧ p.text = c :: text ∧
      p.step = .inl (after ⟨pattern, c :: text⟩)) ∨
    (∃ q c, p.text = c :: q.text ∧ take? p.pattern c = some q.pattern ∧ q.star = p.star ∧
      p.step = .inl q) ∨
    (∃ c text, p.text = c :: text ∧ (∀ pattern, p.pattern ≠ '*' :: pattern) ∧
      take? p.pattern c = none ∧ p.step = p.retry) := by
  unfold step
  split
  · next htext => exact .inl ⟨htext, rfl⟩
  next c text htext =>
  split
  · next pattern hpattern => exact .inr (.inl ⟨pattern, c, text, hpattern, htext, rfl⟩)
  next hstar =>
  split
  · next pattern htake =>
    refine .inr (.inr (.inl ⟨_, c, ?_, ?_, ?_, rfl⟩))
    · exact htext
    · exact htake
    · rfl
  · next htake => exact .inr (.inr (.inr ⟨c, text, htext, hstar, htake, rfl⟩))

/-! ## The end of matching -/

/-- The length of the text that is left for the last star. -/
def reach (p : Position) : Nat :=
  match p.star with
  | some star => star.text.length
  | none => p.text.length + 1

/-- The length of the pattern behind the last star, or where there is none, from here on. -/
def width (p : Position) : Nat :=
  match p.star with
  | some star => star.pattern.length
  | none => p.pattern.length

/-- A bound for the number of turns that are left before the last. -/
def size (p : Position) : Nat := p.reach * (p.width + 1) + p.pattern.length

theorem length_le_reach (p : Position) : p.text.length ≤ p.reach := by
  unfold reach
  split
  · next star hstar => exact (p.behind star hstar).2
  · omega

theorem length_le_width (p : Position) : p.pattern.length ≤ p.width := by
  unfold width
  split
  · next star hstar => exact (p.behind star hstar).1
  · omega

/-- Matching gets ahead if less is left for the last star, whatever is left of the pattern, or if
as much is left for it and less of the pattern. -/
theorem size_lt {p q : Position} (hwidth : q.width ≤ p.width)
    (h : q.reach < p.reach ∨ q.reach = p.reach ∧ q.pattern.length < p.pattern.length) :
    q.size < p.size := by
  have hpattern := q.length_le_width
  unfold size
  rcases h with hreach | ⟨hreach, hshorter⟩
  · -- From a star on, no more characters of the pattern are taken than there are.
    have hround : (q.reach + 1) * (q.width + 1) ≤ p.reach * (p.width + 1) :=
      Nat.mul_le_mul hreach (Nat.succ_le_succ hwidth)
    rw [Nat.add_mul] at hround
    omega
  · have hround : q.reach * (q.width + 1) ≤ p.reach * (p.width + 1) :=
      Nat.mul_le_mul (Nat.le_of_eq hreach) (Nat.succ_le_succ hwidth)
    omega

/-- Every turn that does not give the verdict gets ahead. -/
theorem size_lt_of_step {p q : Position} (h : p.step = .inl q) : q.size < p.size := by
  have hreach := p.length_le_reach
  have hwidth := p.length_le_width
  rcases p.step_cases with ⟨-, hstep⟩ | ⟨pattern, c, text, hpattern, htext, hstep⟩ |
    ⟨_, c, htext, htake, hstar, hstep⟩ | ⟨c, text, htext, -, -, hstep⟩
  all_goals rw [hstep] at h
  · cases h
  · -- What follows a star is shorter, and no more of the text is left for it than for the last.
    obtain rfl := Sum.inl.inj h
    rw [hpattern, List.length_cons] at hwidth
    rw [htext, List.length_cons] at hreach
    apply size_lt
    · simp only [width, after] at hwidth ⊢
      omega
    · simp only [reach, after, hpattern, List.length_cons] at hreach ⊢
      omega
  · obtain rfl := Sum.inl.inj h
    have hshorter := length_of_take? htake
    apply size_lt
    · simp only [width, hstar]
      split <;> omega
    · simp only [reach, hstar, htext, List.length_cons]
      split <;> omega
  · -- There is a character for the last star to take.
    unfold retry at h
    split at h
    · next star hstar =>
      obtain rfl := Sum.inl.inj h
      have hbehind := (p.behind star hstar).2
      rw [htext, List.length_cons] at hbehind
      apply size_lt
      · simp only [width, after, hstar, Nat.le_refl]
      · simp only [reach, after, hstar, List.length_tail]
        omega
    · cases h

/-- The verdict of matching from a position on. -/
-- Patterns and texts that are given can be matched by evaluation.
@[semireducible]
def run (p : Position) : Bool :=
  match _h : p.step with
  | .inl q => q.run
  | .inr verdict => verdict
termination_by p.size
decreasing_by exact size_lt_of_step _h

end Position

/-- Whether the pattern matches the whole text. -/
def isMatch (pattern text : String) : Bool := (Position.start pattern.toList text.toList).run

end Bearer.Text.Glob
