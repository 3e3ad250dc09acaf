/-
  Spans of time.

  A duration is a number of nanoseconds.  Its text uses the largest unit of
  seconds, milliseconds, microseconds and nanoseconds that it reaches, with
  the decimals that lose nothing.
-/
import Bearer.Text.Decimal

namespace Bearer

/-- A span of time, to the nanosecond. -/
structure Duration where
  nanos : Nat
  deriving DecidableEq, Repr, Inhabited

namespace Duration

/-- The empty span. -/
def zero : Duration := ⟨0⟩

/-- A whole number of seconds. -/
def ofSeconds (n : Nat) : Duration := ⟨n * 1000000000⟩

/-- A whole number of milliseconds. -/
def ofMillis (n : Nat) : Duration := ⟨n * 1000000⟩

/-- Whether the span is empty. -/
def isZero (d : Duration) : Bool := d.nanos == 0

/-- The whole seconds of the span. -/
def seconds (d : Duration) : Nat := d.nanos / 1000000000

/-- The nanoseconds past the whole seconds. -/
def subsecond (d : Duration) : Nat := d.nanos % 1000000000

/-- The whole milliseconds of the span. -/
def millis (d : Duration) : Nat := d.nanos / 1000000

instance : LE Duration := ⟨fun a b => a.nanos ≤ b.nanos⟩
instance : LT Duration := ⟨fun a b => a.nanos < b.nanos⟩
instance (a b : Duration) : Decidable (a ≤ b) := inferInstanceAs (Decidable (a.nanos ≤ b.nanos))
instance (a b : Duration) : Decidable (a < b) := inferInstanceAs (Decidable (a.nanos < b.nanos))
instance : Min Duration := ⟨fun a b => ⟨min a.nanos b.nanos⟩⟩
instance : Max Duration := ⟨fun a b => ⟨max a.nanos b.nanos⟩⟩
instance : Add Duration := ⟨fun a b => ⟨a.nanos + b.nanos⟩⟩

@[simp] theorem nanos_min (a b : Duration) : (min a b).nanos = min a.nanos b.nanos := rfl
@[simp] theorem nanos_max (a b : Duration) : (max a b).nanos = max a.nanos b.nanos := rfl
@[simp] theorem nanos_add (a b : Duration) : (a + b).nanos = a.nanos + b.nanos := rfl
theorem le_def (a b : Duration) : a ≤ b ↔ a.nanos ≤ b.nanos := Iff.rfl
theorem lt_def (a b : Duration) : a < b ↔ a.nanos < b.nanos := Iff.rfl

/-- A whole part and `places` decimals, without the zeros they end in. -/
def decimals (whole fraction places : Nat) : String :=
  let digits := ((Text.Decimal.writePadded places fraction).reverse.dropWhile (· = '0')).reverse
  let shown := if fraction = 0 then [] else '.' :: digits
  String.ofList (Text.Decimal.writeNat whole ++ shown)

/-- The text of a span in its largest unit. -/
def text (d : Duration) : String :=
  if 1000000000 ≤ d.nanos then decimals d.seconds d.subsecond 9 ++ "s"
  else if 1000000 ≤ d.nanos then decimals (d.nanos / 1000000) (d.nanos % 1000000) 6 ++ "ms"
  else if 1000 ≤ d.nanos then decimals (d.nanos / 1000) (d.nanos % 1000) 3 ++ "µs"
  else decimals d.nanos 0 0 ++ "ns"

end Duration

end Bearer
