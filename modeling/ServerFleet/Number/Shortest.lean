import ServerFleet.Number.Binary64

/-!
# Shortest decimal text

The decimal text of a double has the fewest digits that read back as the same
double; of two such decimals it takes the nearer one, and the even one if both
are equally near.
-/

namespace ServerFleet
namespace Number

/-- A decimal `0.d₁d₂… * 10 ^ point`, digits without zeros at the end. -/
structure Decimal where
  digits : List Char
  point : Int
deriving DecidableEq, Repr

namespace Binary64

/-- The numbers that round to a double: four times the mantissa less and plus these amounts. -/
def halfGaps (x : Binary64) : Nat × Nat :=
  if x.mantissa = Nat.pow 2 52 ∧ minExponent < x.exponent then (1, 2) else (2, 2)

/-- Whether the decimal `c * 10 ^ j` rounds to the double. -/
def covers (x : Binary64) (c : Nat) (j : Int) : Bool :=
  let (below, above) := x.halfGaps
  let (low, den) := fraction (4 * x.mantissa - below) (x.exponent - 2)
  let (high, _) := fraction (4 * x.mantissa + above) (x.exponent - 2)
  let value := if 0 ≤ j then c * Nat.pow 10 j.toNat * den else c * den
  let scale := if 0 ≤ j then 1 else Nat.pow 10 (-j).toNat
  if x.mantissa % 2 = 0 then low * scale ≤ value && value ≤ high * scale
  else low * scale < value && value < high * scale

def decimalPoint (num den : Nat) : Int :=
  if den ≤ num then ((Nat.toDigits 10 (num / den)).length : Int)
  else
    let zeros := (List.range 400).find? fun k => den ≤ num * Nat.pow 10 (k + 1)
    (0 : Int) - (zeros.getD 0 : Nat)

def decimalOf? (x : Binary64) (count : Nat) : Option (Nat × Int) :=
  let (num, den) := x.magnitude
  let j := decimalPoint num den - (count : Int)
  let (n, d) :=
    if 0 ≤ j then (num, den * Nat.pow 10 j.toNat) else (num * Nat.pow 10 (-j).toNat, den)
  let below := n / d
  let above := below + 1
  match x.covers below j && below != 0, x.covers above j with
  | true, true =>
      let r := n % d
      if 2 * r < d ∨ (2 * r = d ∧ below % 2 = 0) then some (below, j) else some (above, j)
  | true, false => some (below, j)
  | false, true => some (above, j)
  | false, false => none

def shortest (x : Binary64) : Decimal :=
  let found := (List.range 17).findSome? fun n => x.decimalOf? (n + 1)
  let (c, j) := found.getD (x.mantissa, x.exponent)
  let digits := Nat.toDigits 10 c
  let point := j + digits.length
  ⟨(digits.reverse.dropWhile (· == '0')).reverse, point⟩

end Binary64

/-!
# Layout
-/

structure Layout where
  leastExponent : Int
  greatestExponent : Int

def Decimal.positional (d : Decimal) : List Char :=
  if d.point ≤ 0 then
    '0' :: '.' :: (List.replicate (-d.point).toNat '0' ++ d.digits)
  else
    let whole := d.digits.take d.point.toNat
    let zeros := List.replicate (d.point.toNat - d.digits.length) '0'
    let rest := d.digits.drop d.point.toNat
    whole ++ zeros ++ '.' :: (if rest.isEmpty then ['0'] else rest)

/-- The scientific text of a decimal; the exponent has a sign and no leading zeros. -/
def Decimal.scientific (d : Decimal) : List Char :=
  let e := d.point - 1
  let mark := if e < 0 then ['e', '-'] else ['e', '+']
  let exponent := Nat.toDigits 10 e.natAbs
  match d.digits with
  | [] => '0' :: mark ++ exponent
  | [c] => c :: mark ++ exponent
  | c :: rest => c :: '.' :: rest ++ mark ++ exponent

def Binary64.text (layout : Layout) (x : Binary64) : List Char :=
  let sign := if x.negative then ['-'] else []
  if x.mantissa = 0 then sign ++ ['0', '.', '0']
  else
    let d := x.shortest
    let e := d.point - 1
    if layout.leastExponent ≤ e ∧ e ≤ layout.greatestExponent then sign ++ d.positional
    else sign ++ d.scientific

end Number
end ServerFleet
