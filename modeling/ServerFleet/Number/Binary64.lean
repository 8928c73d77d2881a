/-!
# Double-precision numbers

A finite double is a sign, a mantissa below `2 ^ 53` (or equal to it after
rounding up) and a power of two.  Every operation takes the exact rational
result and rounds it once: to nearest, ties to even, with gradual underflow; a
result too large for any finite double is refused.
-/

namespace ServerFleet
namespace Number

/-- The finite double `± mantissa * 2 ^ exponent`. -/
structure Binary64 where
  negative : Bool
  mantissa : Nat
  exponent : Int
deriving DecidableEq, Repr

namespace Binary64

def minExponent : Int := -1074

def maxExponent : Int := 971

def zero (negative : Bool) : Binary64 :=
  ⟨negative, 0, minExponent⟩

def fraction (n : Nat) (e : Int) : Nat × Nat :=
  if 0 ≤ e then (n * Nat.pow 2 e.toNat, 1) else (n, Nat.pow 2 (-e).toNat)

def magnitude (x : Binary64) : Nat × Nat :=
  fraction x.mantissa x.exponent

def divNearest (num den : Nat) : Nat :=
  let q := num / den
  let r := num % den
  if 2 * r < den then q
  else if den < 2 * r then q + 1
  else if q % 2 = 0 then q else q + 1

/-- The exponent at which a positive fraction has 53 binary digits before the point. -/
def scaleOf (num den : Nat) : Int :=
  let guess : Int := (Nat.log2 num : Int) - (Nat.log2 den : Int) - 52
  let floorAt (e : Int) : Nat :=
    if 0 ≤ e then num / (den * Nat.pow 2 e.toNat) else num * Nat.pow 2 (-e).toNat / den
  let e :=
    if Nat.pow 2 53 ≤ floorAt guess then guess + 1
    else if floorAt guess < Nat.pow 2 52 then guess - 1
    else guess
  max e minExponent

def ofFraction? (negative : Bool) (num den : Nat) : Option Binary64 :=
  if num = 0 ∨ den = 0 then some (zero negative)
  else
    let e := scaleOf num den
    let m :=
      if 0 ≤ e then divNearest num (den * Nat.pow 2 e.toNat)
      else divNearest (num * Nat.pow 2 (-e).toNat) den
    let (m, e) := if m = Nat.pow 2 53 then (Nat.pow 2 52, e + 1) else (m, e)
    if maxExponent < e then none else some ⟨negative, m, e⟩

def ofNat? (n : Nat) : Option Binary64 :=
  ofFraction? false n 1

def mul? (x y : Binary64) : Option Binary64 :=
  let (a, b) := x.magnitude
  let (c, d) := y.magnitude
  ofFraction? false (a * c) (b * d)

def div? (x y : Binary64) : Option Binary64 :=
  let (a, b) := x.magnitude
  let (c, d) := y.magnitude
  ofFraction? false (a * d) (b * c)

/-!
# Decimal input

A decimal `significand * 10 ^ exponent` is read in one multiplication or
division by a rounded power of ten, after dividing by `10 ^ 308` as long as the
exponent lies below the powers that a double can hold.
-/

def maxPower : Nat := 308

def lowerTen? (x : Binary64) (power : Nat) : Option Binary64 :=
  (ofNat? (Nat.pow 10 power)).bind x.div?

/-- Divides a magnitude by `10 ^ maxPower` a number of times, as long as anything is left of it. -/
def lowerSteps? : Nat → Binary64 → Option Binary64
  | 0, x => some x
  | n + 1, x =>
      if x.mantissa = 0 then some x
      else (x.lowerTen? maxPower).bind (lowerSteps? n)

def scaleTen? (x : Binary64) (exponent : Int) : Option Binary64 :=
  let power := exponent.natAbs
  if exponent < 0 then
    let steps := (power - 1) / maxPower
    (lowerSteps? steps x).bind fun y => y.lowerTen? (power - steps * maxPower)
  else if power ≤ maxPower then (ofNat? (Nat.pow 10 power)).bind x.mul?
  else if x.mantissa = 0 then some x
  else none

def ofDecimal? (negative : Bool) (significand : Nat) (exponent : Int) : Option Binary64 :=
  ((ofNat? significand).bind fun x => x.scaleTen? exponent).map fun y => { y with negative }

end Binary64
end Number
end ServerFleet
