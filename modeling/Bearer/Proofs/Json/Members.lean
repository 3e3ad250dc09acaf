/-
  The members of an object.

  A record is read off an object by name: whatever other members it has and in
  whatever order, a wanted name must stand there once, or be missing where that
  is allowed.  So what is read is said of the members and not of the reader: a
  name has one value, or none.

  Main statements: `members?_eq_some_iff` and `opens_of_readText?`.
-/
import Bearer.Json.Reader
import Mathlib.Data.List.Forall2

namespace Bearer.Json

open Value

variable {members : List (Option String × Value)} {name : String} {v w : Value}

/-- Whether one member has the name, and the value. -/
def States (members : List (Option String × Value)) (name : String) (v : Value) : Prop :=
  ∃ before after, members = before ++ (some name, v) :: after ∧
    ∀ m ∈ before ++ after, m.1 ≠ some name

/-- Whether no member has the name. -/
def Lacks (members : List (Option String × Value)) (name : String) : Prop :=
  ∀ m ∈ members, m.1 ≠ some name

/-- Whether the members say about a name what a record finds there. -/
def Tells (members : List (Option String × Value)) (name : String) : Option Value → Prop
  | some v => States members name v
  | none => Lacks members name

/-- The members with a name. -/
def named (members : List (Option String × Value)) (name : String) :
    List (Option String × Value) :=
  members.filter fun (other, _) => other = some name

theorem named_eq_nil_iff : named members name = [] ↔ Lacks members name := by
  simp [named, List.filter_eq_nil_iff, Lacks]

theorem named_eq_singleton_iff {other : Option String} :
    named members name = [(other, v)] ↔ other = some name ∧ States members name v := by
  unfold named
  rw [List.filter_eq_cons_iff]
  constructor
  · rintro ⟨before, after, rfl, hbefore, hname, hafter⟩
    obtain rfl : other = some name := by simpa using hname
    refine ⟨rfl, before, after, rfl, fun m hm => ?_⟩
    rcases List.mem_append.1 hm with hm | hm
    · simpa using hbefore m hm
    · simpa using List.filter_eq_nil_iff.1 hafter m hm
  · rintro ⟨rfl, before, after, rfl, hnone⟩
    refine ⟨before, after, rfl, fun m hm => ?_, by simp, ?_⟩
    · simpa using hnone m (List.mem_append_left _ hm)
    · rw [List.filter_eq_nil_iff]
      intro m hm
      simpa using hnone m (List.mem_append_right _ hm)

/-- A name has one value at most. -/
theorem States.unique (h : States members name v) (h' : States members name w) : v = w := by
  have hone := named_eq_singleton_iff.2 ⟨rfl, h⟩
  rw [named_eq_singleton_iff.2 ⟨rfl, h'⟩] at hone
  exact (Prod.mk.inj (List.cons.inj hone).1).2.symm

/-- What a record finds under one name. -/
theorem tells_iff {found : Option Value} :
    (match named members name with
      | [] => some none
      | [(_, value)] => some (some value)
      | _ => none) = some found ↔ Tells members name found := by
  cases found with
  | none =>
    rw [Tells, ← named_eq_nil_iff]
    split <;> simp_all
  | some v =>
    have hone (other : Option String) : named members name = [(other, v)] →
        States members name v := fun h => (named_eq_singleton_iff.1 h).2
    constructor
    · intro h
      split at h
      · cases h
      · next other value heq =>
        cases h
        exact hone other heq
      · cases h
    · intro h
      rw [named_eq_singleton_iff.2 ⟨rfl, h⟩]

theorem mapM_eq_some_iff {α β : Type} {f : α → Option β} {xs : List α} {ys : List β} :
    xs.mapM f = some ys ↔ List.Forall₂ (fun x y => f x = some y) xs ys := by
  induction xs generalizing ys with
  | nil => simp [eq_comm]
  | cons x xs ih =>
    simp only [List.mapM_cons, List.forall₂_cons_left_iff, Option.bind_eq_bind, Option.pure_def,
      Option.bind_eq_some_iff, Option.some.injEq, ih]
    constructor
    · rintro ⟨y, hy, rest, hrest, rfl⟩
      exact ⟨y, rest, hy, hrest, rfl⟩
    · rintro ⟨y, rest, hy, hrest, rfl⟩
      exact ⟨y, hy, rest, hrest, rfl⟩

/-- What a record makes of an object: each member name is a text, and each of the names is looked
up by itself. -/
theorem members?_eq_some_iff {names : List String} {fields : List (Option Value)} :
    (object members).members? names = some fields ↔
      (∀ m ∈ members, m.1.isSome) ∧ List.Forall₂ (Tells members) names fields := by
  have hfield : (fun name found => (match named members name with
      | [] => some none
      | [(_, value)] => some (some value)
      | _ => none) = some found) = Tells members := by
    funext name found
    exact propext tells_iff
  rw [members?, ← hfield, ← mapM_eq_some_iff]
  split
  · next hany =>
    obtain ⟨m, hm, hnone⟩ := List.any_eq_true.1 hany
    constructor
    · intro h
      cases h
    · rintro ⟨hall, -⟩
      have hsome := hall m hm
      simp_all
  · next hany =>
    have hall : ∀ m ∈ members, m.1.isSome := by
      intro m hm
      rw [Option.isSome_iff_ne_none]
      exact fun hnone => hany (List.any_eq_true.2 ⟨m, hm, by simp [hnone]⟩)
    exact ⟨fun h => ⟨hall, h⟩, fun h => h.2⟩

theorem text?_eq_some_iff {s : String} : v.text? = some s ↔ v = .text s := by
  cases v <;> simp [text?, Value.text]

/-! ## Objects as they are written -/

/-- Whether an input opens an object, after white space. -/
def Opens (s : List Symbol) : Prop :=
  ∃ rest, skipSpace s = some '\x7b' :: rest

/-- An object is read where one is opened. -/
theorem opens_of_readValue {fuel : Nat} {s rest : List Symbol}
    (h : readValue fuel s = some (.object members, rest)) : Opens s := by
  cases fuel with
  | zero => rw [readValue] at h; cases h
  | succ fuel =>
    rw [readValue] at h
    split at h
    · split at h
      · cases h
      · simp at h
    · next inner hopen => exact ⟨inner, hopen⟩
    all_goals simp at h

theorem opens_of_readText? {text : String} (h : readText? text = some (.object members)) :
    Opens (text.toList.map some) := by
  unfold readText? read? at h
  split at h
  · next v rest hread =>
    obtain ⟨-, rfl⟩ : _ ∧ v = .object members := by simpa using h
    exact opens_of_readValue hread
  · cases h

end Bearer.Json
