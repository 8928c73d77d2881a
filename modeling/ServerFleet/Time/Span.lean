import ServerFleet.Text.Digits

/-!
# Spans of time

Lengths of time in whole nanoseconds, and their text: the largest unit that does
not exceed the span, with the fewest decimals that lose nothing.
-/

namespace ServerFleet
namespace Time

structure Span where
  nanos : Nat
deriving DecidableEq, Repr

namespace Span

def ofMicros (n : Nat) : Span := ⟨n * 1000⟩

def ofMillis (n : Nat) : Span := ⟨n * 1000000⟩

instance : LE Span where
  le a b := a.nanos ≤ b.nanos

instance : LT Span where
  lt a b := a.nanos < b.nanos

instance (a b : Span) : Decidable (a ≤ b) :=
  inferInstanceAs (Decidable (a.nanos ≤ b.nanos))

instance (a b : Span) : Decidable (a < b) :=
  inferInstanceAs (Decidable (a.nanos < b.nanos))

instance : Add Span where
  add a b := ⟨a.nanos + b.nanos⟩

/-- The text of `n` units of `10 ^ places`, without zeros at the end of the decimals. -/
def decimalText (n places : Nat) : String :=
  let decimals := (Text.padded places (n % Nat.pow 10 places)).toList
  let kept := (decimals.reverse.dropWhile (· == '0')).reverse
  let whole := Text.natText (n / Nat.pow 10 places)
  if places = 0 ∨ kept.isEmpty then whole
  else whole ++ "." ++ String.ofList kept

def text (d : Span) : String :=
  if 1000000000 ≤ d.nanos then decimalText d.nanos 9 ++ "s"
  else if 1000000 ≤ d.nanos then decimalText d.nanos 6 ++ "ms"
  else if 1000 ≤ d.nanos then decimalText d.nanos 3 ++ "µs"
  else decimalText d.nanos 0 ++ "ns"

end Span
end Time
end ServerFleet
