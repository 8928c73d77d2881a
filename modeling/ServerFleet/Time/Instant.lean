import ServerFleet.Time.Calendar

/-!
# Instants

Points of Universal Time with nanosecond precision.  A leap second is written as
the second 60 of a minute and kept as more than a billion nanoseconds within its
second 59.
-/

namespace ServerFleet
namespace Time

def secondNanos : Nat := 1000000000

def daySeconds : Nat := 86400

structure Instant where
  date : Date
  second : Nat
  nanos : Nat
  second_inside : second < daySeconds
  nanos_inside : nanos < secondNanos ∨ (nanos < 2 * secondNanos ∧ second % 60 = 59)
deriving DecidableEq, Repr

def Instant.of? (date : Date) (second nanos : Nat) : Option Instant :=
  if hs : second < daySeconds then
    if hn : nanos < secondNanos ∨ (nanos < 2 * secondNanos ∧ second % 60 = 59) then
      some ⟨date, second, nanos, hs, hn⟩
    else none
  else none

theorem Instant.of?_self (t : Instant) :
    Instant.of? t.date t.second t.nanos = some t := by
  simp [Instant.of?, t.second_inside, t.nanos_inside]

/-- The date and second of the day that lie an offset of less than a day earlier. -/
def shiftBack? (date : Date) (second : Nat) (offset : Int) : Option (Date × Nat) :=
  let moved : Int := (second : Int) - offset
  if moved < 0 then date.previous?.map fun d => (d, (moved + daySeconds).toNat)
  else if moved < daySeconds then some (date, moved.toNat)
  else date.next?.map fun d => (d, (moved - daySeconds).toNat)

theorem shiftBack?_zero (date : Date) (second : Nat) (h : second < daySeconds) :
    shiftBack? date second 0 = some (date, second) := by
  have h1 : ¬ ((second : Int) - 0 < 0) := by omega
  have h2 : (second : Int) - 0 < daySeconds := by omega
  simp only [shiftBack?, h1, h2, if_true, if_false]
  simp

end Time
end ServerFleet
