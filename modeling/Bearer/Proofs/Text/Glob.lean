/-
  Glob patterns match their language.

  What a pattern matches is said of its items alone: a text that falls into as
  many pieces as there are items, each of them a piece that its item takes.

  Matching never takes up a star before the last one again.  Nothing is lost by
  that: between two stars every item takes one character, so whatever an earlier
  star takes instead, what is left for the rest of the pattern is an end of what
  was left before, and the last star can take what comes before that end.

  Main statements: `Follows.leaves`, `Position.run_iff` and `isMatch_decides`.
-/
import Bearer.Text.Glob
import Mathlib.Data.List.Forall2

namespace Bearer.Text.Glob

/-! ## The language of a pattern -/

/-- Which pieces of a text an item takes. -/
def Item.Takes : Item → List Char → Prop
  | star, _ => True
  | any, piece => ∃ c, piece = [c]
  | char c, piece => piece = [c]
  | never, _ => False

/-- Whether a text falls into pieces that the items take, one after the other. -/
def Matches (items : List Item) (text : List Char) : Prop :=
  ∃ pieces : List (List Char), pieces.flatten = text ∧ List.Forall₂ Item.Takes items pieces

variable {item : Item} {rest : List Item} {pattern pattern' text : List Char} {c d : Char}

@[simp] theorem matches_nil_iff : Matches [] text ↔ text = [] := by
  simp [Matches, eq_comm]

theorem matches_cons_iff :
    Matches (item :: rest) text ↔
      ∃ piece left, piece ++ left = text ∧ item.Takes piece ∧ Matches rest left := by
  constructor
  · rintro ⟨pieces, rfl, h⟩
    obtain ⟨piece, pieces, htakes, hrest, rfl⟩ := List.forall₂_cons_left_iff.1 h
    exact ⟨piece, pieces.flatten, rfl, htakes, pieces, rfl, hrest⟩
  · rintro ⟨piece, left, rfl, htakes, pieces, rfl, hrest⟩
    exact ⟨piece :: pieces, rfl, .cons htakes hrest⟩

theorem matches_star_iff :
    Matches (.star :: rest) text ↔ ∃ left, left <:+ text ∧ Matches rest left := by
  rw [matches_cons_iff]
  constructor
  · rintro ⟨piece, left, htext, -, hleft⟩
    exact ⟨left, ⟨piece, htext⟩, hleft⟩
  · rintro ⟨left, ⟨piece, htext⟩, hleft⟩
    exact ⟨piece, left, htext, trivial, hleft⟩

/-- A star takes one more character, or what follows it matches here. -/
theorem matches_star_cons_iff :
    Matches (.star :: rest) (c :: text) ↔
      Matches rest (c :: text) ∨ Matches (.star :: rest) text := by
  simp only [matches_star_iff, List.suffix_cons_iff]
  constructor
  · rintro ⟨left, rfl | hleft, h⟩
    · exact Or.inl h
    · exact Or.inr ⟨left, hleft, h⟩
  · rintro (h | ⟨left, hleft, h⟩)
    · exact ⟨c :: text, Or.inl rfl, h⟩
    · exact ⟨left, Or.inr hleft, h⟩

/-- An item that is no star takes one character or nothing at all. -/
theorem matches_cons_of_ne_star (hstar : item ≠ .star) :
    Matches (item :: rest) text ↔
      ∃ c left, text = c :: left ∧ item.Takes [c] ∧ Matches rest left := by
  rw [matches_cons_iff]
  constructor
  · rintro ⟨piece, left, rfl, htakes, h⟩
    have hone : ∃ c, piece = [c] := by
      cases item with
      | star => exact absurd rfl hstar
      | any => exact htakes
      | char c => exact ⟨c, htakes⟩
      | never => exact htakes.elim
    obtain ⟨c, rfl⟩ := hone
    exact ⟨c, left, rfl, htakes, h⟩
  · rintro ⟨c, left, rfl, htakes, h⟩
    exact ⟨[c], left, rfl, htakes, h⟩

/-! ## Patterns and what they take -/

/-- A pattern that takes a character starts with an item that does. -/
theorem items_of_take? (h : take? pattern c = some pattern') :
    ∃ item, items pattern = item :: items pattern' ∧ item ≠ .star ∧ item.Takes [c] := by
  unfold take? at h
  split at h
  · cases h
  · cases h
    exact ⟨.any, rfl, by simp, _, rfl⟩
  · obtain ⟨rfl, hrest⟩ := Option.ite_none_right_eq_some.1 h
    cases hrest
    exact ⟨.char _, rfl, by simp, rfl⟩
  · next hstar hany hescape =>
    obtain ⟨⟨hplain, rfl⟩, hrest⟩ := Option.ite_none_right_eq_some.1 h
    cases hrest
    refine ⟨.char _, ?_, by simp, rfl⟩
    rw [items] <;> simp_all
  · cases h

/-- A pattern that takes a character matches what goes on as the rest of the pattern says. -/
theorem matches_take_iff (h : take? pattern c = some pattern') :
    Matches (items pattern) (c :: text) ↔ Matches (items pattern') text := by
  obtain ⟨item, hitems, hstar, htakes⟩ := items_of_take? h
  rw [hitems, matches_cons_of_ne_star hstar]
  constructor
  · rintro ⟨c, left, heq, -, hmatches⟩
    cases heq
    exact hmatches
  · intro hmatches
    exact ⟨c, text, rfl, htakes, hmatches⟩

/-- A pattern that takes no character, and starts with no star, matches nothing that starts with
the character. -/
theorem not_matches_of_take? (h : take? pattern c = none) (hstar : ∀ p, pattern ≠ '*' :: p)
    (text : List Char) : ¬ Matches (items pattern) (c :: text) := by
  -- An item that takes one character could only be that character, which `take?` has refused.
  have hchar {d : Char} {rest : List Item} (hne : d ≠ c) :
      ¬ Matches (.char d :: rest) (c :: text) := by
    rw [matches_cons_of_ne_star (by simp)]
    rintro ⟨e, left, heq, htakes, -⟩
    cases heq
    cases htakes
    exact hne rfl
  unfold items
  split
  · simp
  · rw [matches_cons_of_ne_star (by simp)]
    rintro ⟨e, left, -, htakes, -⟩
    exact htakes
  · next d p =>
    refine hchar fun heq => ?_
    rw [take?, if_pos heq] at h
    cases h
  · next p => exact absurd rfl (hstar p)
  · next p => cases h
  · next d p hlone hescape _ hany =>
    refine hchar fun heq => ?_
    have hplain : d ≠ '\\' := by
      rintro rfl
      cases p with
      | nil => exact hlone rfl rfl
      | cons e p => exact hescape e p rfl rfl
    rw [take?, if_pos ⟨hplain, heq⟩] at h
    · cases h
    all_goals simp_all

/-- Nothing but stars matches nothing. -/
theorem matches_items_nil_iff :
    Matches (items pattern) [] ↔ pattern.all (· = '*') = true := by
  have hone (item : Item) (rest : List Item) (hstar : item ≠ .star) :
      ¬ Matches (item :: rest) [] := by
    rw [matches_cons_of_ne_star hstar]
    rintro ⟨c, left, heq, -⟩
    cases heq
  fun_induction items pattern with
  | case1 => simp
  | case2 => simpa using hone _ _ (by simp)
  | case3 c s ih => simpa using hone _ _ (by simp)
  | case4 s ih =>
    simpa [matches_star_iff] using ih
  | case5 s ih => simpa using hone _ _ (by simp)
  | case6 c s _ _ hstar _ ih =>
    have hne : c ≠ '*' := hstar
    simpa [hne] using hone (.char c) (items s) (by simp)

/-! ## Between two stars -/

/-- Whether matching gets from a star to a rest of the pattern and of the text without reading
another star. -/
inductive Follows (star : Star) : List Char → List Char → Prop
  | here : Follows star star.pattern star.text
  | take {pattern pattern' text : List Char} {c : Char} (h : Follows star pattern (c :: text))
    (htake : take? pattern c = some pattern') : Follows star pattern' text

variable {star : Star}

/-- What follows a star matches where the star ends just when the rest matches the rest. -/
theorem Follows.matches_iff (h : Follows star pattern text) :
    Matches (items star.pattern) star.text ↔ Matches (items pattern) text := by
  induction h with
  | here => rfl
  | take h htake ih => exact ih.trans (matches_take_iff htake)

/-- Wherever the star ends instead, what is then left for the rest of the pattern is an end of
what is left now. -/
theorem Follows.leaves (h : Follows star pattern text) {left : List Char}
    (hsuffix : left <:+ star.text) (hmatches : Matches (items star.pattern) left) :
    ∃ left', left' <:+ text ∧ Matches (items pattern) left' := by
  induction h with
  | here => exact ⟨left, hsuffix, hmatches⟩
  | take h htake ih =>
    obtain ⟨left', hsuffix', hmatches'⟩ := ih
    obtain ⟨item, hitems, hstar, -⟩ := items_of_take? htake
    rw [hitems, matches_cons_of_ne_star hstar] at hmatches'
    -- The item takes the first character of what is left.
    obtain ⟨d, rest, rfl, -, hrest⟩ := hmatches'
    obtain ⟨before, heq⟩ := hsuffix'
    refine ⟨rest, ?_, hrest⟩
    cases before with
    | nil => exact ⟨[], (List.cons.inj heq).2⟩
    | cons e before => exact ⟨before ++ [d], by simpa using (List.cons.inj heq).2⟩

/-- At the next star, the star before can be forgotten. -/
theorem Follows.forget (h : Follows star ('*' :: pattern) text) :
    Matches (.star :: items star.pattern) star.text ↔ Matches (.star :: items pattern) text := by
  have hitems : items ('*' :: pattern) = .star :: items pattern := by simp [items]
  constructor
  · intro hmatches
    obtain ⟨left, hsuffix, hleft⟩ := matches_star_iff.1 hmatches
    obtain ⟨left', hsuffix', hleft'⟩ := h.leaves hsuffix hleft
    -- The new star takes what comes before that.
    rw [hitems, matches_star_iff] at hleft'
    obtain ⟨last, hlast, hrest⟩ := hleft'
    exact matches_star_iff.2 ⟨last, hlast.trans hsuffix', hrest⟩
  · intro hmatches
    rw [← hitems, ← h.matches_iff] at hmatches
    exact matches_star_iff.2 ⟨star.text, List.suffix_rfl, hmatches⟩

/-- Where the text is over, it is too late for the star to take more. -/
theorem Follows.over (h : Follows star pattern []) :
    Matches (.star :: items star.pattern) star.text ↔ Matches (items pattern) [] := by
  constructor
  · intro hmatches
    obtain ⟨left, hsuffix, hleft⟩ := matches_star_iff.1 hmatches
    obtain ⟨left', hsuffix', hleft'⟩ := h.leaves hsuffix hleft
    exact List.suffix_nil.1 hsuffix' ▸ hleft'
  · intro hmatches
    exact matches_star_iff.2 ⟨star.text, List.suffix_rfl, h.matches_iff.2 hmatches⟩

/-- After a mismatch, the star has to take more. -/
theorem Follows.mismatch (h : Follows star pattern (c :: text)) (htake : take? pattern c = none)
    (hstar : ∀ p, pattern ≠ '*' :: p) :
    Matches (.star :: items star.pattern) star.text ↔
      Matches (.star :: items star.pattern) star.text.tail := by
  have hnot : ¬ Matches (items star.pattern) star.text :=
    mt h.matches_iff.1 (not_matches_of_take? htake hstar text)
  cases htext : star.text with
  | nil => rfl
  | cons d left =>
    rw [htext] at hnot
    rw [matches_star_cons_iff, or_iff_right hnot, List.tail_cons]

/-! ## Positions -/

namespace Position

variable {p q : Position} {verdict : Bool}

/-- Whether a position has been reached from its star without a mismatch. -/
def Sound (p : Position) : Prop := ∀ star ∈ p.star, Follows star p.pattern p.text

/-- Whether there is a match from a position on, if its star may take more. -/
def Promises (p : Position) : Prop :=
  match p.star with
  | some star => Matches (.star :: items star.pattern) star.text
  | none => Matches (items p.pattern) p.text

theorem sound_after (star : Star) : (after star).Sound := by
  rintro _ ⟨⟩
  exact .here

theorem promises_after (star : Star) :
    (after star).Promises ↔ Matches (.star :: items star.pattern) star.text := Iff.rfl

/-- A turn that does not give the verdict loses no match and makes up none. -/
theorem promises_step (h : p.Sound) (hstep : p.step = .inl q) :
    q.Sound ∧ (q.Promises ↔ p.Promises) := by
  rcases p.step_cases with ⟨-, hp⟩ | ⟨pattern, c, text, hpattern, htext, hp⟩ |
    ⟨r, c, htext, htake, hstar, hp⟩ | ⟨c, text, htext, hno, htake, hp⟩
  all_goals rw [hp] at hstep
  · cases hstep
  · obtain rfl := Sum.inl.inj hstep
    refine ⟨sound_after _, ?_⟩
    rw [promises_after]
    unfold Promises
    split
    · next star hstar =>
      have hfollows := h star hstar
      rw [hpattern, htext] at hfollows
      exact hfollows.forget.symm
    · rw [hpattern, htext, items]
  · obtain rfl := Sum.inl.inj hstep
    constructor
    · intro star hmem
      rw [hstar] at hmem
      have hfollows := h star hmem
      rw [htext] at hfollows
      exact hfollows.take htake
    · unfold Promises
      rw [hstar]
      split
      · rfl
      · rw [htext, matches_take_iff htake]
  · unfold retry at hstep
    split at hstep
    · next star hstar =>
      obtain rfl := Sum.inl.inj hstep
      refine ⟨sound_after _, ?_⟩
      rw [promises_after]
      unfold Promises
      rw [hstar]
      have hfollows := h star hstar
      rw [htext] at hfollows
      exact (hfollows.mismatch htake hno).symm
    · cases hstep

/-- The verdict says whether there is a match. -/
theorem promises_of_verdict (h : p.Sound) (hstep : p.step = .inr verdict) :
    verdict = true ↔ p.Promises := by
  rcases p.step_cases with ⟨htext, hp⟩ | ⟨pattern, c, text, -, -, hp⟩ | ⟨r, c, -, -, -, hp⟩ |
    ⟨c, text, htext, hno, htake, hp⟩
  all_goals rw [hp] at hstep
  · obtain rfl := Sum.inr.inj hstep
    rw [← matches_items_nil_iff]
    unfold Promises
    split
    · next star hstar =>
      have hfollows := h star hstar
      rw [htext] at hfollows
      exact hfollows.over.symm
    · rw [htext]
  · cases hstep
  · cases hstep
  · unfold retry at hstep
    split at hstep
    · cases hstep
    · next hstar =>
      obtain rfl := Sum.inr.inj hstep
      have hnot := not_matches_of_take? htake hno text
      simp only [Promises, hstar, htext, hnot, Bool.false_eq_true]

/-- The verdict of matching from a position on. -/
theorem run_iff (h : p.Sound) : p.run = true ↔ p.Promises := by
  induction p using run.induct with
  | case1 p q hstep ih =>
    obtain ⟨hsound, hpromises⟩ := promises_step h hstep
    rw [run, ← hpromises, ← ih hsound]
    split
    · next hq => rw [Sum.inl.inj (hstep.symm.trans hq)]
    · next hq => cases hstep.symm.trans hq
  | case2 p verdict hstep =>
    rw [run, ← promises_of_verdict h hstep]
    split
    · next hq => cases hstep.symm.trans hq
    · next hq => rw [Sum.inr.inj (hstep.symm.trans hq)]

/-- Where matching is after a number of turns, or its verdict. -/
def afterTurns : Nat → Position → Position ⊕ Bool
  | 0, p => .inl p
  | n + 1, p =>
    match p.step with
    | .inl q => q.afterTurns n
    | .inr verdict => .inr verdict

/-- More turns than a position has ahead of it give the verdict. -/
theorem afterTurns_of_size_lt {n : Nat} (h : p.size < n) : p.afterTurns n = .inr p.run := by
  induction n generalizing p with
  | zero => omega
  | succ n ih =>
    rw [afterTurns, run]
    cases hstep : p.step with
    | inl q => exact ih (Nat.lt_of_lt_of_le (size_lt_of_step hstep) (Nat.le_of_lt_succ h))
    | inr verdict => rfl

end Position

/-! ## Matching -/

theorem isMatch_iff {pattern text : String} :
    isMatch pattern text = true ↔ Matches (items pattern.toList) text.toList := by
  have hsound : (Position.start pattern.toList text.toList).Sound := by
    rintro star ⟨⟩
  exact Position.run_iff hsound

/-- Matching a pattern against a text comes to an end, after no more turns than their lengths,
each a little increased, multiply to; and it finds a match just when the text is in the language of
the pattern. -/
theorem isMatch_decides (pattern text : String) :
    (Position.start pattern.toList text.toList).afterTurns
        ((text.length + 2) * (pattern.length + 1)) = .inr (isMatch pattern text) ∧
      (isMatch pattern text = true ↔ Matches (items pattern.toList) text.toList) := by
  refine ⟨Position.afterTurns_of_size_lt ?_, isMatch_iff⟩
  have hsize : (Position.start pattern.toList text.toList).size =
      (text.length + 1) * (pattern.length + 1) + pattern.length := rfl
  rw [hsize, Nat.add_mul (text.length + 1) 1]
  omega

/-- The star takes more until the rest fits; a star after a backslash takes nothing but a star. -/
example : isMatch "a*b*c" "a-b-x-b-c" = true ∧ isMatch "a\\*" "ab" = false := by decide

/-! ## Patterns that end with their only star -/

/-- Whether a character stands for itself in a pattern. -/
def Plain (c : Char) : Prop := c ≠ '\\' ∧ c ≠ '*' ∧ c ≠ '?'

theorem items_plain {s : List Char} (h : ∀ c ∈ s, Plain c) (rest : List Char) :
    items (s ++ rest) = s.map Item.char ++ items rest := by
  induction s with
  | nil => rfl
  | cons c s ih =>
    obtain ⟨hescape, hstar, hany⟩ := h c (List.mem_cons_self ..)
    rw [List.cons_append, items, ih fun d hd => h d (List.mem_cons_of_mem _ hd)]
    · rfl
    all_goals intros; simp_all

/-- Characters that stand for themselves and a star match what starts with these characters. -/
theorem matches_prefix_iff (s text : List Char) :
    Matches (s.map Item.char ++ [.star]) text ↔ s <+: text := by
  induction s generalizing text with
  | nil => simp [matches_star_iff]
  | cons c s ih =>
    rw [List.map_cons, List.cons_append, matches_cons_of_ne_star (by simp)]
    constructor
    · rintro ⟨d, left, rfl, htakes, hleft⟩
      obtain rfl : d = c := List.singleton_inj.1 htakes
      exact List.cons_prefix_cons.2 ⟨rfl, (ih left).1 hleft⟩
    · intro hprefix
      obtain ⟨left, rfl, hleft⟩ := List.cons_prefix_iff.1 hprefix
      exact ⟨c, left, rfl, rfl, (ih left).2 hleft⟩

/-- A pattern of plain characters and a star matches what starts with these characters. -/
theorem isMatch_star_iff {s text : String} (h : ∀ c ∈ s.toList, Plain c) :
    isMatch (s ++ "*") text = true ↔ s.toList <+: text.toList := by
  have hitems : items (s ++ "*").toList = s.toList.map Item.char ++ [.star] := by
    rw [String.toList_append, items_plain h]
    rfl
  rw [isMatch_iff, hitems, matches_prefix_iff]

end Bearer.Text.Glob
