/-
  Token ids.

  Every token is minted under an id of its own.  Where the ids come from does not
  matter, as long as none is drawn twice.  One supply counts the draws: its ids
  are a fixed stem and the number of the draw in twelve hexadecimal digits.

  Main statement: `Token.id_injective`.
-/
import Bearer.Text.Decimal
import Bearer.Text.Hex

namespace Bearer

/-- A supply of token ids, one for each draw. -/
structure IdSupply where
  /-- The id of the `n`-th draw. -/
  id (n : Nat) : String
  /-- Different draws give different ids. -/
  injective : Function.Injective id

namespace Token

/-- What every numbered id starts with. -/
def idStem : String := "a5a5a5a5-a5a5-45a5-8000-"

/-- The numbered id of the `n`-th draw. -/
def id (n : Nat) : String :=
  let digits := Nat.toDigits 16 n
  idStem ++ String.ofList (List.replicate (12 - digits.length) '0' ++ digits)

/-- The number that hexadecimal digits write. -/
def hexNumber (digits : List Char) : Nat :=
  digits.foldl (fun n c => 16 * n + (Text.Hex.value? c).getD 0) 0

theorem hexNumber_padded (k n : Nat) :
    hexNumber (List.replicate k '0' ++ Nat.toDigits 16 n) = n :=
  Text.Decimal.foldl_padded (by decide) Text.Hex.value?_digit k n

theorem id_injective : Function.Injective id := by
  intro m n h
  have hlists := congrArg String.toList h
  simp only [id, String.toList_append, String.toList_ofList, List.append_cancel_left_eq] at hlists
  have hnumbers := congrArg hexNumber hlists
  rwa [hexNumber_padded, hexNumber_padded] at hnumbers

end Token

/-- The supply of numbered ids. -/
def IdSupply.numbered : IdSupply := ⟨Token.id, Token.id_injective⟩

end Bearer
