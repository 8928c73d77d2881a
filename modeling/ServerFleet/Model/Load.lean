/-!
# Loads

How many players a server has, and how many slots for them.
-/

namespace ServerFleet

structure Load where
  players : Nat
  slots : Nat
deriving DecidableEq, Repr

namespace Load

/-- The load in percent of the slots, cut off at the largest 32-bit number; no slots are full. -/
def percent (l : Load) : Nat :=
  if l.slots = 0 then 100 else min (UInt32.size - 1) (l.players * 100 / l.slots)

def free (l : Load) : Nat :=
  l.slots - l.players

def total (amount : Load → Nat) : List Load → Nat
  | [] => 0
  | l :: rest => amount l + total amount rest

end Load
end ServerFleet
