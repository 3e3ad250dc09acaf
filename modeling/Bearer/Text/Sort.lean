/-
  Texts in order, each once.

  Main statements: `mem_sortDistinct` and `nodup_sortDistinct`.
-/

namespace Bearer.Text

/-- Puts a text at its place in an ascending list, unless it is there already. -/
def insertSorted (s : String) : List String → List String
  | [] => [s]
  | t :: rest =>
    if s < t then s :: t :: rest
    else if s = t then t :: rest
    else t :: insertSorted s rest

/-- The texts in ascending order of their characters, each once. -/
def sortDistinct (texts : List String) : List String := texts.foldr insertSorted []

@[simp] theorem mem_insertSorted (s t : String) (texts : List String) :
    t ∈ insertSorted s texts ↔ t = s ∨ t ∈ texts := by
  induction texts with
  | nil => simp [insertSorted]
  | cons u rest ih =>
    unfold insertSorted
    split
    · simp
    · split
      · next h => subst h; simp
      · simp only [List.mem_cons, ih]
        grind

/-- Sorting neither adds nor loses a text. -/
@[simp] theorem mem_sortDistinct (t : String) (texts : List String) :
    t ∈ sortDistinct texts ↔ t ∈ texts := by
  induction texts with
  | nil => simp [sortDistinct]
  | cons s rest ih =>
    show t ∈ insertSorted s (sortDistinct rest) ↔ _
    simp [ih]

theorem pairwise_insertSorted (s : String) {texts : List String}
    (h : texts.Pairwise (· < ·)) : (insertSorted s texts).Pairwise (· < ·) := by
  induction h with
  | nil => simp [insertSorted]
  | @cons t rest hfirst hrest ih =>
    unfold insertSorted
    split
    · next hlt =>
      apply List.Pairwise.cons _ (List.Pairwise.cons hfirst hrest)
      intro u hu
      rcases List.mem_cons.1 hu with rfl | hu
      · exact hlt
      · exact String.lt_trans hlt (hfirst u hu)
    · next hnot =>
      split
      · exact List.Pairwise.cons hfirst hrest
      · next hne =>
        have hlt : t < s := by
          by_cases hts : t < s
          · exact hts
          · exact absurd (String.le_antisymm (String.not_lt.1 hts) (String.not_lt.1 hnot)) hne
        apply List.Pairwise.cons _ ih
        intro u hu
        rcases (mem_insertSorted s u rest).1 hu with rfl | hu
        · exact hlt
        · exact hfirst u hu

/-- Sorting keeps one of each. -/
theorem nodup_sortDistinct (texts : List String) : (sortDistinct texts).Nodup := by
  have hsorted : (sortDistinct texts).Pairwise (· < ·) := by
    induction texts with
    | nil => exact List.Pairwise.nil
    | cons s rest ih => exact pairwise_insertSorted s ih
  apply hsorted.imp
  intro s t hlt heq
  subst heq
  exact String.lt_irrefl s hlt

end Bearer.Text
