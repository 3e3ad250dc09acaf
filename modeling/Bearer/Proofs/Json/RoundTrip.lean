/-
  Written JSON reads back.

  What the writer makes of a value, the reader takes for that value, whatever
  follows it.  A string goes through pieces: a plain character and a short
  escape are one piece each, any other control character is a code unit.  A
  number ends where no digit, point or exponent follows, so what comes after a
  value must be the end of the input, a comma or a closing bracket; the writer
  puts nothing else there.  The values are those whose numbers are integers as
  the writer of integers writes them.

  Main statements: `read?_write` and `readText?_render`.
-/
import Bearer.Json.Reader
import Bearer.Json.Writer
import Bearer.Proofs.Text.Decimal

namespace Bearer.Json

open Text.Decimal

/-- The symbols of written characters. -/
abbrev symbols (cs : List Char) : List Symbol := cs.map some

/-! ## Strings -/

theorem readPieces_quote (rest : List Symbol) :
    readPieces (some '"' :: rest) = some ([], rest) := by
  rw [readPieces.eq_def]
  rfl

theorem readPieces_plain {c : Char} (hquote : c ≠ '"') (hslash : c ≠ '\\')
    (hcontrol : ¬ c.toNat < 32) (rest : List Symbol) :
    readPieces (some c :: rest) =
      (readPieces rest).map fun (ps, after) => (.char c :: ps, after) := by
  rw [readPieces.eq_def]
  dsimp only
  rw [if_neg hquote, if_neg hslash, if_neg hcontrol]

theorem readPieces_short {e c : Char} (h : unescape? e = some c) (rest : List Symbol) :
    readPieces (some '\\' :: some e :: rest) =
      (readPieces rest).map fun (ps, after) => (.char c :: ps, after) := by
  -- The letter `u` starts a code unit and is no short escape.
  have hu : e ≠ 'u' := by
    rintro rfl
    simp [unescape?] at h
  -- Of the three ways to go on after a backslash, only the short escape is left.
  rw [readPieces.eq_def]
  dsimp only
  rw [if_neg (by decide), if_pos rfl]
  split
  · next heq =>
    rw [List.cons.injEq, Option.some.injEq] at heq
    exact absurd heq.1 hu
  · next heq =>
    rw [List.cons.injEq, Option.some.injEq] at heq
    obtain ⟨rfl, rfl⟩ := heq
    rw [h]
    cases readPieces rest <;> rfl
  · next hnone => exact absurd rfl (hnone e rest)

theorem readPieces_unit {a b c d : Symbol} {n : Nat} (h : codeUnit? a b c d = some n)
    (rest : List Symbol) :
    readPieces (some '\\' :: some 'u' :: a :: b :: c :: d :: rest) =
      (readPieces rest).map fun (ps, after) => (.unit n :: ps, after) := by
  rw [readPieces.eq_def]
  dsimp only
  rw [if_neg (by decide), if_pos rfl]
  simp only [h, Option.bind_eq_bind, Option.bind_some]
  cases readPieces rest <;> rfl

/-- What the reader sees of a character that the writer has escaped. -/
def pieceOf (c : Char) : Piece :=
  if c = '"' ∨ c = '\\' ∨ c = '\n' ∨ c = '\r' ∨ c = '\t' ∨ c.toNat = 8 ∨ c.toNat = 12 then .char c
  else if c.toNat < 32 then .unit c.toNat
  else .char c

theorem char_of_toNat {c : Char} {n : Nat} (h : c.toNat = n) : c = Char.ofNat n := by
  rw [← h, Char.ofNat_toNat]

theorem codeUnit?_control {n : Nat} (h : n < 32) :
    codeUnit? (some '0') (some '0') (some (Text.Hex.digit (n / 16)))
      (some (Text.Hex.digit (n % 16))) = some n := by
  have hzero : Text.Hex.value? '0' = some 0 := rfl
  have hhigh : Text.Hex.value? (Text.Hex.digit (n / 16)) = some (n / 16) :=
    Text.Hex.value?_digit (by omega)
  have hlow : Text.Hex.value? (Text.Hex.digit (n % 16)) = some (n % 16) :=
    Text.Hex.value?_digit (by omega)
  simp only [codeUnit?, hexValue?, Option.bind_some, hzero, hhigh, hlow, Option.bind_eq_bind,
    Option.pure_def, Option.some.injEq]
  omega

/-- A written character is read as its one piece. -/
theorem readPieces_escape (c : Char) (rest : List Symbol) :
    readPieces (symbols (escape c) ++ rest) =
      (readPieces rest).map fun (ps, after) => (pieceOf c :: ps, after) := by
  unfold escape
  split
  · next h => subst h; exact readPieces_short rfl rest
  split
  · next h => subst h; exact readPieces_short rfl rest
  split
  · next h => subst h; exact readPieces_short rfl rest
  split
  · next h => subst h; exact readPieces_short rfl rest
  split
  · next h => subst h; exact readPieces_short rfl rest
  split
  · next h => rw [char_of_toNat h]; exact readPieces_short rfl rest
  split
  · next h => rw [char_of_toNat h]; exact readPieces_short rfl rest
  -- What is left has no short escape: it is a control character or plain.
  next hquote hslash hn hr ht hb hf =>
  split
  · next h =>
    have hpiece : pieceOf c = .unit c.toNat := by
      simp only [pieceOf, hquote, hslash, hn, hr, ht, hb, hf, or_self, if_false, h, if_true]
    rw [hpiece]
    exact readPieces_unit (codeUnit?_control h) rest
  · next h =>
    have hpiece : pieceOf c = .char c := by
      simp only [pieceOf, hquote, hslash, hn, hr, ht, hb, hf, or_self, if_false, h]
    rw [hpiece]
    exact readPieces_plain hquote hslash h rest

theorem readPieces_escapes (cs : List Char) (rest : List Symbol) :
    readPieces (symbols (cs.flatMap escape ++ ['"']) ++ rest) = some (cs.map pieceOf, rest) := by
  induction cs with
  | nil => exact readPieces_quote rest
  | cons c cs ih =>
    -- The escape of the first character is followed by what the induction is about.
    have hsplit : symbols ((c :: cs).flatMap escape ++ ['"']) ++ rest =
        symbols (escape c) ++ (symbols (cs.flatMap escape ++ ['"']) ++ rest) := by simp
    rw [hsplit, readPieces_escape, ih]
    rfl

theorem decodePieces_pieceOf (c : Char) (ps : List Piece) :
    decodePieces (pieceOf c :: ps) = (decodePieces ps).map (c :: ·) := by
  unfold pieceOf
  split
  · rw [decodePieces]
  split
  · next h =>
    -- A control character lies far below the surrogates.
    have hplain : c.toNat < 0xD800 ∨ 0xE000 ≤ c.toNat := Or.inl (by omega)
    rw [decodePieces.eq_def]
    dsimp only
    rw [if_pos hplain, Char.ofNat_toNat]
  · rw [decodePieces]

theorem decodePieces_pieces (cs : List Char) : decodePieces (cs.map pieceOf) = some cs := by
  induction cs with
  | nil => rw [List.map_nil, decodePieces]
  | cons c cs ih => rw [List.map_cons, decodePieces_pieceOf, ih, Option.map_some]

/-- A written string reads back after its opening mark, also one that stands for no text. -/
theorem readString_writeString (s : Option String) (rest : List Symbol) :
    readString (symbols (writeString s).tail ++ rest) = some (s, rest) := by
  cases s with
  | none =>
    -- What stands for no text is a lone surrogate.
    have hunit : codeUnit? (some 'd') (some '8') (some '0') (some '0') = some 0xD800 := by decide
    have hread : readPieces (symbols (writeString none).tail ++ rest) =
        some ([.unit 0xD800], rest) := by
      show readPieces (some '\\' :: some 'u' :: some 'd' :: some '8' :: some '0' :: some '0' ::
        some '"' :: rest) = _
      rw [readPieces_unit hunit, readPieces_quote]
      rfl
    have hdecode : decodePieces [.unit 0xD800] = none := by
      rw [decodePieces.eq_def]
      rfl
    simp only [readString, hread, Option.map_some, hdecode, Option.map_none]
  | some s =>
    have hbody : (writeString (some s)).tail = s.toList.flatMap escape ++ ['"'] := rfl
    simp only [readString, hbody, readPieces_escapes, Option.map_some, decodePieces_pieces,
      String.ofList_toList]

theorem writeString_eq_cons (s : Option String) :
    writeString s = '"' :: (writeString s).tail := by
  cases s <;> rfl

/-! ## Numbers -/

/-- Whether nothing that goes on with a number comes first. -/
def Delimited : List Symbol → Prop
  | some c :: _ => c = ',' ∨ c = ']' ∨ c = '\x7d'
  | _ => True

theorem spanDigits_of_delimited {rest : List Symbol} (h : Delimited rest) :
    spanDigits rest = ([], rest) := by
  unfold spanDigits
  split
  · next c s =>
    have hc : isDigit c = false := by
      rcases h with rfl | rfl | rfl <;> rfl
    rw [hc]
    rfl
  · rfl

theorem spanDigits_append {ds : List Char} (hds : ∀ c ∈ ds, isDigit c = true) {rest : List Symbol}
    (h : Delimited rest) : spanDigits (symbols ds ++ rest) = (ds, rest) := by
  induction ds with
  | nil => exact spanDigits_of_delimited h
  | cons c ds ih =>
    have hc : isDigit c = true := hds c (List.mem_cons_self ..)
    have htail := ih fun d hd => hds d (List.mem_cons_of_mem _ hd)
    simp only [symbols, List.map_cons, List.cons_append, spanDigits, hc, if_true]
    rw [htail]

theorem readWhole_writeNat (n : Nat) {rest : List Symbol} (h : Delimited rest) :
    readWhole (symbols (writeNat n) ++ rest) = some (writeNat n, rest) := by
  rcases Nat.eq_zero_or_pos n with rfl | hpos
  · rfl
  · obtain ⟨d, ds, heq, hd, hlt, hds⟩ := writeNat_pos hpos
    have hdigits : ∀ c ∈ Nat.digitChar d :: ds, isDigit c = true := by
      simpa using ⟨isDigit_digitChar hlt, hds⟩
    have hspan := spanDigits_append hdigits h
    -- A leading zero would be a number by itself.
    have hne : Nat.digitChar d ≠ '0' := by
      have : ∀ d : Fin 10, 0 < d.val → Nat.digitChar d.val ≠ '0' := by decide
      exact this ⟨d, hlt⟩ hd
    rw [heq]
    unfold readWhole
    split
    · next heq' =>
      simp only [symbols, List.map_cons, List.cons_append, List.cons.injEq, Option.some.injEq]
        at heq'
      exact absurd heq'.1 hne
    · rw [hspan]

theorem readDecimals_of_delimited {rest : List Symbol} (h : Delimited rest) :
    readDecimals rest = some ([], rest) := by
  unfold readDecimals
  split
  · rcases h with h | h | h <;> exact absurd h (by decide)
  · rfl

theorem readExponent_of_delimited {rest : List Symbol} (h : Delimited rest) :
    readExponent rest = some ([], rest) := by
  unfold readExponent
  split
  · next c s =>
    have hc : ¬ (c = 'e' ∨ c = 'E') := by
      rcases h with rfl | rfl | rfl <;> decide
    rw [if_neg hc]
  · rfl

theorem readNumber_writeInt (n : Int) {rest : List Symbol} (h : Delimited rest) :
    readNumber (symbols (writeInt n) ++ rest) = some (writeInt n, rest) := by
  cases n with
  | ofNat n =>
    obtain ⟨d, ds, heq, hlt, -⟩ := writeNat_eq_cons n
    unfold readNumber
    split
    next sign s hsign =>
    split at hsign
    · next hcons =>
      rw [writeInt, heq, symbols, List.map_cons, List.cons_append, List.cons.injEq,
        Option.some.injEq] at hcons
      exact absurd hcons.1 (digitChar_ne_minus hlt)
    · obtain ⟨rfl, rfl⟩ := Prod.mk.inj hsign
      simp only [writeInt, readWhole_writeNat n h, readDecimals_of_delimited h,
        readExponent_of_delimited h, Option.bind_eq_bind, Option.bind_some, Option.pure_def,
        List.append_nil, List.nil_append]
  | negSucc n =>
    have hsign : symbols (writeInt (.negSucc n)) ++ rest =
        some '-' :: (symbols (writeNat (n + 1)) ++ rest) := rfl
    rw [hsign]
    simp only [readNumber, readWhole_writeNat (n + 1) h, readDecimals_of_delimited h,
      readExponent_of_delimited h, Option.bind_eq_bind, Option.bind_some, Option.pure_def,
      List.append_nil]
    rfl

/-! ## Values -/

namespace Value

mutual

/-- Whether every number of a value is an integer as the writer writes it. -/
def Integral : Value → Prop
  | number literal => ∃ n, literal = writeInt n
  | array items => IntegralItems items
  | object members => IntegralMembers members
  | null | bool _ | string _ => True

/-- Whether every number of every item is an integer. -/
def IntegralItems : List Value → Prop
  | [] => True
  | v :: vs => v.Integral ∧ IntegralItems vs

/-- Whether every number of every member is an integer. -/
def IntegralMembers : List (Option String × Value) → Prop
  | [] => True
  | (_, v) :: ms => v.Integral ∧ IntegralMembers ms

end

/-- Whether a character starts no value, or is passed over before one. -/
def startsNone (c : Char) : Bool :=
  c = ' ' || c = '\n' || c = '\t' || c = '\r' || c = ']' || c = '\x7d'

/-- A value is written with a first character that starts one. -/
theorem write_eq_cons (v : Value) (h : v.Integral) :
    ∃ c cs, v.write = c :: cs ∧ startsNone c = false := by
  cases v with
  | null => exact ⟨_, _, rfl, rfl⟩
  | bool b => cases b <;> exact ⟨_, _, rfl, rfl⟩
  | number literal =>
    obtain ⟨n, rfl⟩ := h
    have hstart : ∀ d : Fin 10, startsNone (Nat.digitChar d.val) = false := by decide
    cases n with
    | ofNat n =>
      obtain ⟨d, ds, heq, hlt, -⟩ := writeNat_eq_cons n
      exact ⟨_, _, heq, hstart ⟨d, hlt⟩⟩
    | negSucc n => exact ⟨_, _, rfl, rfl⟩
  | string s => exact ⟨_, _, by rw [write, writeString_eq_cons], rfl⟩
  | array items =>
    cases items with
    | nil => exact ⟨'[', [']'], rfl, rfl⟩
    | cons v vs => exact ⟨'[', v.write ++ writeItems vs ++ [']'], rfl, rfl⟩
  | object members =>
    cases members with
    | nil => exact ⟨'\x7b', ['\x7d'], rfl, rfl⟩
    | cons m ms =>
      exact ⟨'\x7b', writeString m.1 ++ ':' :: m.2.write ++ writeMembers ms ++ ['\x7d'],
        rfl, rfl⟩

end Value

theorem skipSpace_of_startsNone {c : Char} (h : Value.startsNone c = false) (s : List Symbol) :
    skipSpace (some c :: s) = some c :: s := by
  have hblank : ¬ (c = ' ' ∨ c = '\n' ∨ c = '\t' ∨ c = '\r') := by
    rintro (rfl | rfl | rfl | rfl) <;> exact absurd h (by decide)
  rw [skipSpace, if_neg hblank]

theorem readValue_writeInt (n : Int) (fuel : Nat) {rest : List Symbol} (h : Delimited rest) :
    readValue (fuel + 1) (symbols (writeInt n) ++ rest) = some (.number (writeInt n), rest) := by
  obtain ⟨c, cs, heq, hstart⟩ := Value.write_eq_cons (.number (writeInt n)) ⟨n, rfl⟩
  have hnumber := readNumber_writeInt n h
  -- A number starts with a digit or a sign, so it is taken for no other value.
  have hc : c ≠ '[' ∧ c ≠ '\x7b' ∧ c ≠ '"' ∧ c ≠ 'n' ∧ c ≠ 't' ∧ c ≠ 'f' := by
    have hdigit : ∀ d : Fin 10, Nat.digitChar d.val ≠ '[' ∧ Nat.digitChar d.val ≠ '\x7b' ∧
        Nat.digitChar d.val ≠ '"' ∧ Nat.digitChar d.val ≠ 'n' ∧ Nat.digitChar d.val ≠ 't' ∧
        Nat.digitChar d.val ≠ 'f' := by decide
    cases n with
    | ofNat n =>
      obtain ⟨d, ds, hcons, hlt, -⟩ := writeNat_eq_cons n
      have : c = Nat.digitChar d := (List.cons.inj (heq.symm.trans hcons)).1
      rw [this]
      exact hdigit ⟨d, hlt⟩
    | negSucc n =>
      have : c = '-' := (List.cons.inj (heq.symm.trans (rfl : _ = '-' :: writeNat (n + 1)))).1
      rw [this]
      decide
  have hcons : symbols (writeInt n) ++ rest = some c :: (symbols cs ++ rest) := by
    rw [show writeInt n = c :: cs from heq]
    rfl
  rw [hcons] at hnumber ⊢
  rw [readValue, skipSpace_of_startsNone hstart]
  split
  · next h' => exact absurd (Option.some.inj (List.cons.inj h').1) hc.1
  · next h' => exact absurd (Option.some.inj (List.cons.inj h').1) hc.2.1
  · next h' => exact absurd (Option.some.inj (List.cons.inj h').1) hc.2.2.1
  · next h' => exact absurd (Option.some.inj (List.cons.inj h').1) hc.2.2.2.1
  · next h' => exact absurd (Option.some.inj (List.cons.inj h').1) hc.2.2.2.2.1
  · next h' => exact absurd (Option.some.inj (List.cons.inj h').1) hc.2.2.2.2.2
  · rw [hnumber, Option.map_some]

/-- A value is read as it was written, whatever follows it. -/
def ReadsBack (v : Value) : Prop :=
  ∀ (fuel : Nat) (rest : List Symbol), 2 * v.write.length ≤ fuel → Delimited rest →
    readValue fuel (symbols v.write ++ rest) = some (v, rest)

/-- Further items read back after a first one that does. -/
def ItemsReadBack (vs : List Value) : Prop :=
  ∀ (v : Value) (fuel : Nat) (rest : List Symbol), ReadsBack v →
    2 * (v.write.length + (Value.writeItems vs).length) < fuel →
    readItems fuel (symbols (v.write ++ Value.writeItems vs) ++ some ']' :: rest) =
      some (v :: vs, rest)

/-- Further members read back after a first one that does. -/
def MembersReadBack (ms : List (Option String × Value)) : Prop :=
  ∀ (name : Option String) (v : Value) (fuel : Nat) (rest : List Symbol), ReadsBack v →
    2 * (v.write.length + (Value.writeMembers ms).length) < fuel →
    readMembers fuel
        (symbols (writeString name ++ ':' :: v.write ++ Value.writeMembers ms) ++
          some '\x7d' :: rest) =
      some ((name, v) :: ms, rest)

theorem itemsReadBack_nil : ItemsReadBack [] := by
  intro v fuel rest hv hfuel
  obtain ⟨fuel, rfl⟩ : ∃ k, fuel = k + 1 := ⟨fuel - 1, by omega⟩
  simp only [Value.writeItems, List.append_nil, List.length_nil, Nat.add_zero] at hfuel ⊢
  rw [readItems, hv fuel (some ']' :: rest) (by omega) (Or.inr (Or.inl rfl))]
  rfl

theorem itemsReadBack_cons {w : Value} {ws : List Value} (hw : ReadsBack w)
    (hws : ItemsReadBack ws) : ItemsReadBack (w :: ws) := by
  intro v fuel rest hv hfuel
  obtain ⟨fuel, rfl⟩ : ∃ k, fuel = k + 1 := ⟨fuel - 1, by omega⟩
  simp only [Value.writeItems, List.length_append, List.length_cons] at hfuel
  have hsplit : symbols (v.write ++ Value.writeItems (w :: ws)) ++ some ']' :: rest =
      symbols v.write ++
        some ',' :: (symbols (w.write ++ Value.writeItems ws) ++ some ']' :: rest) := by
    simp [Value.writeItems]
  have hcomma : Delimited
      (some ',' :: (symbols (w.write ++ Value.writeItems ws) ++ some ']' :: rest)) := Or.inl rfl
  -- What follows the comma reads back with one unit of fuel less.
  have hrest := hws w fuel rest hw (by omega)
  rw [hsplit, readItems, hv fuel _ (by omega) hcomma]
  simp only [Option.bind_eq_bind, Option.bind_some, skipSpace_of_startsNone (c := ',') rfl, hrest]
  rfl

/-- One member reads back up to what follows its value. -/
theorem readMembers_member (name : Option String) {v : Value} {fuel : Nat}
    {after : List Symbol} (hv : ReadsBack v) (hfuel : 2 * v.write.length ≤ fuel)
    (hafter : Delimited after) :
    readMembers (fuel + 1) (symbols (writeString name ++ ':' :: v.write) ++ after) =
      match skipSpace after with
      | some ',' :: s => do
        let (ms, s) ← readMembers fuel s
        return ((name, v) :: ms, s)
      | some '\x7d' :: s => return ([(name, v)], s)
      | _ => none := by
  have hsplit : symbols (writeString name ++ ':' :: v.write) ++ after =
      some '"' :: (symbols (writeString name).tail ++ some ':' :: (symbols v.write ++ after)) := by
    rw [writeString_eq_cons]
    simp
  rw [hsplit, readMembers]
  simp only [skipSpace_of_startsNone (c := '"') rfl, Option.bind_eq_bind, Option.bind_some,
    readString_writeString, skipSpace_of_startsNone (c := ':') rfl]
  exact congrArg (fun found => Option.bind found _) (hv fuel after hfuel hafter)

theorem membersReadBack_nil : MembersReadBack [] := by
  intro name v fuel rest hv hfuel
  obtain ⟨fuel, rfl⟩ : ∃ k, fuel = k + 1 := ⟨fuel - 1, by omega⟩
  simp only [Value.writeMembers, List.length_nil, Nat.add_zero] at hfuel
  have hbrace : Delimited (some '\x7d' :: rest) := Or.inr (Or.inr rfl)
  rw [Value.writeMembers, List.append_nil, readMembers_member name hv (by omega) hbrace]
  rfl

theorem membersReadBack_cons {other : Option String} {w : Value}
    {ms : List (Option String × Value)} (hw : ReadsBack w) (hms : MembersReadBack ms) :
    MembersReadBack ((other, w) :: ms) := by
  intro name v fuel rest hv hfuel
  obtain ⟨fuel, rfl⟩ : ∃ k, fuel = k + 1 := ⟨fuel - 1, by omega⟩
  simp only [Value.writeMembers, List.length_append, List.length_cons] at hfuel
  have hsplit : symbols (writeString name ++ ':' :: v.write ++
        Value.writeMembers ((other, w) :: ms)) ++ some '\x7d' :: rest =
      symbols (writeString name ++ ':' :: v.write) ++
        some ',' :: (symbols (writeString other ++ ':' :: w.write ++ Value.writeMembers ms) ++
          some '\x7d' :: rest) := by
    simp [Value.writeMembers]
  have hcomma : Delimited (some ',' :: (symbols (writeString other ++ ':' :: w.write ++
      Value.writeMembers ms) ++ some '\x7d' :: rest)) := Or.inl rfl
  -- What follows the comma reads back with one unit of fuel less.
  have hrest := hms other w fuel rest hw (by omega)
  rw [hsplit, readMembers_member name hv (by omega) hcomma]
  simp only [skipSpace_of_startsNone (c := ',') rfl, hrest]
  rfl

/-! ## Brackets -/

theorem readValue_items {c : Char} (hstart : Value.startsNone c = false) (fuel : Nat)
    (s : List Symbol) :
    readValue (fuel + 1) (some '[' :: some c :: s) =
      (readItems fuel (some c :: s)).map fun (vs, rest) => (.array vs, rest) := by
  have hne : c ≠ ']' := by
    rintro rfl
    exact absurd hstart (by decide)
  rw [readValue, skipSpace_of_startsNone (c := '[') rfl]
  simp only [skipSpace_of_startsNone hstart]
  split
  · next h => exact absurd (Option.some.inj (List.cons.inj h).1) hne
  · rfl

theorem readValue_members (fuel : Nat) (s : List Symbol) :
    readValue (fuel + 1) (some '\x7b' :: some '"' :: s) =
      (readMembers fuel (some '"' :: s)).map fun (ms, rest) => (.object ms, rest) := by
  rw [readValue, skipSpace_of_startsNone (c := '\x7b') rfl]
  simp only [skipSpace_of_startsNone (c := '"') rfl]
  rfl

theorem readValue_string (fuel : Nat) (s : List Symbol) :
    readValue (fuel + 1) (some '"' :: s) =
      (readString s).map fun (t, rest) => (.string t, rest) := by
  rw [readValue, skipSpace_of_startsNone (c := '"') rfl]
  rfl

theorem readsBack_array_cons {v : Value} {vs : List Value} (hi : v.Integral) (hv : ReadsBack v)
    (hvs : ItemsReadBack vs) : ReadsBack (.array (v :: vs)) := by
  intro fuel rest hfuel _
  obtain ⟨c, cs, heq, hstart⟩ := v.write_eq_cons hi
  have hlen : (Value.array (v :: vs)).write.length =
      v.write.length + (Value.writeItems vs).length + 2 := by
    simp [Value.write]
    omega
  obtain ⟨fuel, rfl⟩ : ∃ k, fuel = k + 1 := ⟨fuel - 1, by omega⟩
  -- The opening bracket costs one unit of fuel.
  have hitems := hvs v fuel rest hv (by omega)
  have hsplit : symbols (Value.array (v :: vs)).write ++ rest =
      some '[' :: (symbols (v.write ++ Value.writeItems vs) ++ some ']' :: rest) := by
    simp [Value.write]
  have hcons : symbols (v.write ++ Value.writeItems vs) ++ some ']' :: rest =
      some c :: (symbols (cs ++ Value.writeItems vs) ++ some ']' :: rest) := by
    simp [heq]
  rw [hsplit, hcons, readValue_items hstart, ← hcons, hitems]
  rfl

theorem readsBack_object_cons {name : Option String} {v : Value}
    {ms : List (Option String × Value)} (hv : ReadsBack v) (hms : MembersReadBack ms) :
    ReadsBack (.object ((name, v) :: ms)) := by
  intro fuel rest hfuel _
  have hlen : (Value.object ((name, v) :: ms)).write.length =
      (writeString name).length + v.write.length + (Value.writeMembers ms).length + 3 := by
    simp [Value.write]
    omega
  obtain ⟨fuel, rfl⟩ : ∃ k, fuel = k + 1 := ⟨fuel - 1, by omega⟩
  -- The opening brace costs one unit of fuel.
  have hmembers := hms name v fuel rest hv (by omega)
  have hsplit : symbols (Value.object ((name, v) :: ms)).write ++ rest = some '\x7b' ::
      (symbols (writeString name ++ ':' :: v.write ++ Value.writeMembers ms) ++
        some '\x7d' :: rest) := by
    simp [Value.write]
  have hcons : symbols (writeString name ++ ':' :: v.write ++ Value.writeMembers ms) ++
      some '\x7d' :: rest = some '"' :: (symbols ((writeString name).tail ++ ':' :: v.write ++
        Value.writeMembers ms) ++ some '\x7d' :: rest) := by
    rw [writeString_eq_cons]
    rfl
  rw [hsplit, hcons, readValue_members, ← hcons, hmembers]
  rfl

/-! ## All values -/

mutual

theorem readsBack : ∀ v : Value, v.Integral → ReadsBack v
  | .null, _ | .bool true, _ | .bool false, _ | .array [], _ | .object [], _ => by
    intro fuel rest hfuel _
    obtain ⟨fuel, rfl⟩ : ∃ k, fuel = k + 1 := ⟨fuel - 1, by simp [Value.write] at hfuel; omega⟩
    rfl
  | .number literal, h => by
    intro fuel rest hfuel hrest
    obtain ⟨c, cs, heq, -⟩ := Value.write_eq_cons (.number literal) h
    obtain ⟨n, rfl⟩ := h
    rw [heq, List.length_cons] at hfuel
    obtain ⟨fuel, rfl⟩ : ∃ k, fuel = k + 1 := ⟨fuel - 1, by omega⟩
    exact readValue_writeInt n fuel hrest
  | .string s, _ => by
    intro fuel rest hfuel _
    have hwrite : (Value.string s).write = '"' :: (writeString s).tail := by
      rw [Value.write, ← writeString_eq_cons]
    rw [hwrite, List.length_cons] at hfuel
    obtain ⟨fuel, rfl⟩ : ∃ k, fuel = k + 1 := ⟨fuel - 1, by omega⟩
    rw [hwrite, symbols, List.map_cons, List.cons_append, readValue_string,
      readString_writeString]
    rfl
  | .array (v :: vs), h => readsBack_array_cons h.1 (readsBack v h.1) (itemsReadBack vs h.2)
  | .object ((_, v) :: ms), h => readsBack_object_cons (readsBack v h.1) (membersReadBack ms h.2)

theorem itemsReadBack : ∀ vs : List Value, Value.IntegralItems vs → ItemsReadBack vs
  | [], _ => itemsReadBack_nil
  | v :: vs, h => itemsReadBack_cons (readsBack v h.1) (itemsReadBack vs h.2)

theorem membersReadBack :
    ∀ ms : List (Option String × Value), Value.IntegralMembers ms → MembersReadBack ms
  | [], _ => membersReadBack_nil
  | (_, v) :: ms, h => membersReadBack_cons (readsBack v h.1) (membersReadBack ms h.2)

end

theorem read?_write {v : Value} (h : v.Integral) : read? (symbols v.write) = some v := by
  -- The reader takes enough fuel for what the writer has made.
  have hlen : 2 * v.write.length ≤ 2 * (symbols v.write).length + 2 := by
    rw [List.length_map]
    omega
  have hread := readsBack v h _ [] hlen trivial
  rw [List.append_nil] at hread
  rw [read?, hread]
  rfl

theorem readText?_render {v : Value} (h : v.Integral) : readText? v.render = some v := by
  rw [readText?, Value.render, String.toList_ofList]
  exact read?_write h

/-! ## Numbers, texts and records -/

namespace Value

theorem literalInt?_writeInt (n : Int) : literalInt? (writeInt n) = some n := by
  cases n with
  | ofNat n =>
    obtain ⟨d, ds, heq, hlt, -⟩ := writeNat_eq_cons n
    unfold literalInt?
    split
    · next hcons =>
      rw [writeInt, heq, List.cons.injEq] at hcons
      exact absurd hcons.1 (digitChar_ne_minus hlt)
    · rw [writeInt, Nat.pow_eq, readDigits_writeNat (lt_pow_length_writeNat n)]
      rfl
  | negSucc n =>
    rw [writeInt, literalInt?, Nat.pow_eq, readDigits_writeNat (lt_pow_length_writeNat (n + 1))]
    rfl

theorem intIn?_int {low high n : Int} (hlow : low ≤ n) (hhigh : n < high) :
    (int n).intIn? low high = some n := by
  simp only [intIn?, int, int?, literalInt?_writeInt, Option.filter_some, decide_eq_true_eq]
  rw [if_pos ⟨hlow, hhigh⟩]

theorem int64?_int {n : Int} (hlow : -int64Bound ≤ n) (hhigh : n < int64Bound) :
    (int n).int64? = some n := intIn?_int hlow hhigh

theorem word?_nat (n : UInt64) : (nat n.toNat).word? = some n := by
  have hn : (nat n.toNat).intIn? 0 UInt64.size = some (n.toNat : Int) :=
    intIn?_int (Int.natCast_nonneg _) (Int.ofNat_lt.2 n.toNat_lt)
  rw [word?, hn, Option.map_some, Int.toNat_natCast, UInt64.ofNat_toNat]

theorem text?_text (s : String) : (text s).text? = some s := rfl

theorem integral_text (s : String) : (text s).Integral := trivial

theorem integral_int (n : Int) : (int n).Integral := ⟨n, rfl⟩

theorem integral_nat (n : Nat) : (nat n).Integral := ⟨n, rfl⟩

theorem integral_record {members : List (String × Value)} (h : ∀ m ∈ members, m.2.Integral) :
    (record members).Integral := by
  show IntegralMembers (members.map _)
  induction members with
  | nil => trivial
  | cons m members ih =>
    exact ⟨h m (List.mem_cons_self ..), ih fun m' hm => h m' (List.mem_cons_of_mem _ hm)⟩

end Value

end Bearer.Json
