/-
  Written instants read back.

  The reader splits the text where the writer joined it: every number but the
  year has a fixed number of digits, and the year ends at a hyphen.  What it has
  read is put together again by the calendar, of which a day number is that of
  its date.

  Main statements: `read?_write` and `read?_text`.
-/
import Bearer.Proofs.Text.Decimal
import Bearer.Time.Rfc3339

namespace Bearer.Rfc3339

open Text (isBlank skipBlanks)
open Text.Decimal

/-! ## Runs of digits -/

/-- Digits are split off up to the limit or to what is no digit. -/
theorem spanDigits_append {ds : List Char} (hds : ∀ c ∈ ds, isDigit c = true) {limit : Nat}
    {rest : List Char}
    (hstop : ds.length = limit ∨ ds.length < limit ∧ ∀ c ∈ rest.head?, isDigit c = false) :
    spanDigits limit (ds ++ rest) = (ds, rest) := by
  induction ds generalizing limit with
  | nil =>
    cases limit with
    | zero => rfl
    | succ limit =>
      cases rest with
      | nil => rfl
      | cons c rest =>
        have hc : isDigit c = false := by
          rcases hstop with h | ⟨-, h⟩
          · exact absurd h (by simp)
          · exact h c rfl
        simp only [List.nil_append, spanDigits, hc]
        rfl
  | cons c ds ih =>
    obtain ⟨limit, rfl⟩ : ∃ k, limit = k + 1 := by
      refine ⟨limit - 1, ?_⟩
      simp only [List.length_cons] at hstop
      omega
    have hc : isDigit c = true := hds c (List.mem_cons_self ..)
    have hstop' : ds.length = limit ∨
        ds.length < limit ∧ ∀ c ∈ rest.head?, isDigit c = false := by
      rw [List.length_cons] at hstop
      exact hstop.imp Nat.succ.inj fun h => ⟨Nat.lt_of_succ_lt_succ h.1, h.2⟩
    -- The first digit uses up one of the limit.
    have htail := ih (fun d hd => hds d (List.mem_cons_of_mem _ hd)) hstop'
    simp only [List.cons_append, spanDigits, hc, if_true, htail]

theorem digitsValue_writePadded (width n : Nat) : digitsValue (writePadded width n) = n :=
  foldl_padded (by decide) digit?_digitChar _ n

theorem writePadded_ne_nil (width n : Nat) : writePadded width n ≠ [] := by
  simp [writePadded, List.ne_nil_of_length_pos (length_writeNat_pos n)]

/-- Whatever follows a written number, the text starts with a digit. -/
theorem isDigit_of_writePadded_append {width n : Nat} {rest s : List Char} {c : Char}
    (h : writePadded width n ++ rest = c :: s) : isDigit c = true := by
  cases hw : writePadded width n with
  | nil => exact absurd hw (writePadded_ne_nil _ _)
  | cons d ds =>
    rw [hw, List.cons_append, List.cons.injEq] at h
    exact h.1 ▸ isDigit_writePadded width n d (hw ▸ List.mem_cons_self ..)

theorem readDigits?_writePadded {width n limit : Nat} {rest : List Char}
    (hstop : (writePadded width n).length = limit ∨
      (writePadded width n).length < limit ∧ ∀ c ∈ rest.head?, isDigit c = false) :
    readDigits? limit (writePadded width n ++ rest) = some (n, rest) := by
  have hne : (writePadded width n).isEmpty = false :=
    List.isEmpty_eq_false_iff.2 (writePadded_ne_nil width n)
  rw [readDigits?, spanDigits_append (isDigit_writePadded width n) hstop]
  simp only [hne, digitsValue_writePadded]
  rfl

/-! ## Parts of a text -/

theorem isBlank_of_isDigit {c : Char} (h : isDigit c = true) : isBlank c = false := by
  have hc : '0' ≤ c ∧ c ≤ '9' := by
    simp only [isDigit, digit?] at h
    split at h
    · assumption
    · simp at h
  have hlow : 48 ≤ c.toNat := hc.1
  have hhigh : c.toNat ≤ 57 := hc.2
  simp only [isBlank, Bool.or_eq_false_iff, Bool.and_eq_false_iff, decide_eq_false_iff_not]
  omega

theorem skipBlanks_of_isDigit {ds rest : List Char} (hne : ds ≠ [])
    (hds : ∀ c ∈ ds, isDigit c = true) : skipBlanks (ds ++ rest) = ds ++ rest := by
  cases ds with
  | nil => exact absurd rfl hne
  | cons c ds =>
    exact Text.skipBlanks_cons_of_not (isBlank_of_isDigit (hds c (List.mem_cons_self ..)))

theorem readTwo?_writeTwo {n : Nat} (h : n < 100) (rest : List Char) :
    readTwo? (writeTwo n ++ rest) = some (n, rest) := by
  rw [readTwo?, writeTwo, skipBlanks_of_isDigit (writePadded_ne_nil 2 n) (isDigit_writePadded 2 n)]
  exact readDigits?_writePadded (Or.inl (length_writePadded (by decide) h))

theorem expect?_cons {c : Char} (h : isBlank c = false) (rest : List Char) :
    expect? c (c :: rest) = some rest := by
  rw [expect?, Text.skipBlanks_cons_of_not h]
  exact if_pos rfl

/-- A year reads back before a hyphen. -/
theorem readYear?_writeYear (year : Int) (rest : List Char) :
    readYear? (writeYear year ++ '-' :: rest) = some (year, '-' :: rest) := by
  have hhyphen : ∀ c ∈ ('-' :: rest).head?, isDigit c = false := by
    intro c hc
    rw [← Option.some.inj hc]
    rfl
  unfold writeYear
  split
  · next h =>
    have hlen : (writePadded 4 year.toNat).length = 4 :=
      length_writePadded (by decide) (by omega)
    rw [readYear?, skipBlanks_of_isDigit (writePadded_ne_nil _ _) (isDigit_writePadded _ _)]
    -- There is no sign before the digits.
    split
    · next hcons => exact absurd (isDigit_of_writePadded_append hcons) (by decide)
    · next hcons => exact absurd (isDigit_of_writePadded_append hcons) (by decide)
    · rw [readDigits?_writePadded (Or.inl hlen)]
      simp only [Option.map_some, Int.toNat_of_nonneg h.1]
  · next h =>
    -- After a sign the limit is the length of the text, and the hyphen ends the digits.
    have hread : readDigits? (writePadded 4 year.natAbs ++ '-' :: rest).length
        (writePadded 4 year.natAbs ++ '-' :: rest) = some (year.natAbs, '-' :: rest) := by
      apply readDigits?_writePadded
      refine Or.inr ⟨?_, hhyphen⟩
      rw [List.length_append, List.length_cons]
      omega
    split
    · next hneg =>
      rw [List.cons_append, readYear?, Text.skipBlanks_cons_of_not rfl]
      simp only [hread, Option.map_some, Option.some.injEq, Prod.mk.injEq, and_true]
      omega
    · next hpos =>
      rw [List.cons_append, readYear?, Text.skipBlanks_cons_of_not rfl]
      simp only [hread, Option.map_some, Option.some.injEq, Prod.mk.injEq, and_true]
      omega

/-- Decimals read back before a letter, in whatever number of them they were written. -/
theorem readFraction?_padded {places n : Nat} (hp : 0 < places) (hp' : places ≤ 9)
    (h : n < 10 ^ places) :
    readFraction? ('.' :: writePadded places n ++ ['Z']) =
      some (n * 10 ^ (9 - places), ['Z']) := by
  have hlen := length_writePadded hp h
  have hspan : spanDigits 9 (writePadded places n ++ ['Z']) = (writePadded places n, ['Z']) := by
    apply spanDigits_append (isDigit_writePadded places n)
    rw [hlen]
    -- Nine decimals are the limit; fewer end at the letter.
    by_cases h9 : places = 9
    · exact Or.inl h9
    · refine Or.inr ⟨by omega, ?_⟩
      intro c hc
      rw [← Option.some.inj hc]
      rfl
  have hne : (writePadded places n).isEmpty = false :=
    List.isEmpty_eq_false_iff.2 (writePadded_ne_nil places n)
  rw [List.cons_append, readFraction?, hspan]
  simp only [hne, digitsValue_writePadded, hlen, Nat.pow_eq]
  rfl

theorem readFraction?_writeFraction {nanos : Nat} (h : nanos < 1000000000) :
    readFraction? (writeFraction nanos ++ ['Z']) = some (nanos, ['Z']) := by
  unfold writeFraction
  split
  · next h0 => rw [h0]; rfl
  split
  · next hmillis =>
    rw [readFraction?_padded (by decide) (by decide) (by omega),
      show nanos / 1000000 * 10 ^ (9 - 3) = nanos by omega]
  split
  · next hmicros =>
    rw [readFraction?_padded (by decide) (by decide) (by omega),
      show nanos / 1000 * 10 ^ (9 - 6) = nanos by omega]
  · rw [readFraction?_padded (by decide) (by decide) h, Nat.sub_self, Nat.pow_zero, Nat.mul_one]

/-! ## The whole text -/

/-- The dates of instants lie in the years of the calendar. -/
theorem year_range (t : Instant) :
    -262143 ≤ (Calendar.date (t.second / 86400)).year ∧
      (Calendar.date (t.second / 86400)).year ≤ 262142 := by
  obtain ⟨hlow, hhigh⟩ := t.second_range
  generalize hn : t.second / 86400 + Calendar.epochOffset = n
  have hlt : (n % Calendar.daysPerEra).toNat < Calendar.daysPerEra := by
    unfold Calendar.daysPerEra
    omega
  have hbounds := Calendar.yearOfEra_bounds hlt
  have hsum := Calendar.yearOfEra_sum hlt
  simp only [Calendar.date, hn]
  generalize (Calendar.yearOfEra (n % Calendar.daysPerEra).toNat).1 = y at *
  generalize (Calendar.yearOfEra (n % Calendar.daysPerEra).toNat).2 = d at *
  unfold Calendar.epochOffset at hn
  unfold Calendar.daysPerEra at *
  unfold Calendar.monthOfDay
  -- Only the first and the last era can leave the range, and there the day of the era decides.
  have hera : -656 ≤ n / 146097 ∧ n / 146097 ≤ 655 := by omega
  have hfirst : n / 146097 = -656 → 256 < y ∨ y = 256 ∧ 306 ≤ d := by
    intro h
    have : 256 ≤ y := by omega
    omega
  have hlast : n / 146097 = 655 → y < 142 ∨ y = 142 ∧ d ≤ 305 := by
    intro h
    have : y ≤ 142 := by omega
    omega
  clear hsum
  constructor
  · split <;> split <;> omega
  · split <;> split <;> omega

theorem daysInMonth_le (year : Int) (month : Nat) : Calendar.daysInMonth year month ≤ 31 := by
  unfold Calendar.daysInMonth
  split
  · split <;> decide
  all_goals decide

/-- The parts of a written instant make it up again. -/
theorem assemble?_parts (t : Instant) :
    assemble? (Calendar.date (t.second / 86400)) ((t.second % 86400).toNat / 3600)
      ((t.second % 86400).toNat / 60 % 60)
      (if 1000000000 ≤ t.nanos then 60 else (t.second % 86400).toNat % 60)
      (if 1000000000 ≤ t.nanos then t.nanos - 1000000000 else t.nanos) 0 = some t := by
  have hyear := year_range t
  have hnanos := t.nanos_range
  -- The seconds of the day and the day make up the second, also in a leap second.
  have hclock : t.second / 86400 * 86400 + (((t.second % 86400).toNat / 3600 * 3600 +
      (t.second % 86400).toNat / 60 % 60 * 60 +
      min (if 1000000000 ≤ t.nanos then 60 else (t.second % 86400).toNat % 60) 59 : Nat) : Int) -
      0 = t.second := by
    split <;> omega
  have hparts : (if (if 1000000000 ≤ t.nanos then 60 else (t.second % 86400).toNat % 60) = 60 then
      (if 1000000000 ≤ t.nanos then t.nanos - 1000000000 else t.nanos) + 1000000000
      else if 1000000000 ≤ t.nanos then t.nanos - 1000000000 else t.nanos) = t.nanos := by
    by_cases h : 1000000000 ≤ t.nanos
    · simp only [h, if_true]
      exact Nat.sub_add_cancel h
    · simp only [h, if_false]
      exact if_neg (by omega)
  rw [assemble?, if_pos]
  · simp only [Calendar.dayNumber_date, hclock, hparts]
    exact Instant.ofParts?_self t
  · refine ⟨Calendar.date_valid _, hyear.1, hyear.2, by omega, by omega, ?_⟩
    split <;> omega

/-- The parts of a written time read back one after the other. -/
theorem read?_parts {date : Calendar.Date} {hour minute second nanos : Nat}
    (hmonth : date.month < 100) (hday : date.day < 100) (hhour : hour < 100)
    (hminute : minute < 100) (hsecond : second < 100) (hnanos : nanos < 1000000000) :
    read? (writeYear date.year ++ '-' :: (writeTwo date.month ++ '-' :: (writeTwo date.day ++
      'T' :: (writeTwo hour ++ ':' :: (writeTwo minute ++ ':' :: (writeTwo second ++
        (writeFraction nanos ++ ['Z']))))))) =
      assemble? date hour minute second nanos 0 := by
  -- The reader is gone through part by part; nothing but the numbers is left to check.
  have hzone : readZone? ['Z'] = some (0, []) := rfl
  have hhyphen := expect?_cons (c := '-') rfl
  have hcolon := expect?_cons (c := ':') rfl
  rw [read?]
  simp only [Option.bind_eq_bind]
  rw [readYear?_writeYear, Option.bind_some, hhyphen, Option.bind_some,
    readTwo?_writeTwo hmonth, Option.bind_some, hhyphen, Option.bind_some,
    readTwo?_writeTwo hday, Option.bind_some]
  dsimp only
  rw [if_pos (Or.inl rfl), Option.bind_some, readTwo?_writeTwo hhour, Option.bind_some, hcolon,
    Option.bind_some, readTwo?_writeTwo hminute, Option.bind_some, hcolon, Option.bind_some,
    readTwo?_writeTwo hsecond, Option.bind_some, readFraction?_writeFraction hnanos,
    Option.bind_some, hzone, Option.bind_some]
  exact if_pos rfl

theorem read?_write (t : Instant) : read? (write t) = some t := by
  obtain ⟨-, hmonth, -, hday⟩ := Calendar.date_valid (t.second / 86400)
  have hlong := daysInMonth_le (Calendar.date (t.second / 86400)).year
    (Calendar.date (t.second / 86400)).month
  -- Every part fits the two digits that it is written in.
  have hnanos := t.nanos_lt
  have hsecond : (if 1000000000 ≤ t.nanos then 60 else (t.second % 86400).toNat % 60) < 100 := by
    split <;> omega
  have hfraction : (if 1000000000 ≤ t.nanos then t.nanos - 1000000000 else t.nanos) <
      1000000000 := by
    split <;> omega
  have hparts := read?_parts (Nat.lt_of_le_of_lt hmonth (by decide : 12 < 100))
    (Nat.lt_of_le_of_lt (Nat.le_trans hday hlong) (by decide : 31 < 100))
    (by omega : (t.second % 86400).toNat / 3600 < 100)
    (by omega : (t.second % 86400).toNat / 60 % 60 < 100) hsecond hfraction
  rw [write]
  simp only [List.append_assoc, List.cons_append]
  rw [hparts]
  exact assemble?_parts t

theorem read?_text (t : Instant) : read? (text t).toList = some t := by
  rw [text, String.toList_ofList, read?_write]

end Bearer.Rfc3339
