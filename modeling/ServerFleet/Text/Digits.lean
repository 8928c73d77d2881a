/-!
# Decimal digits

Whole numbers as decimal text.  A number below a bound is read from one or more
ASCII digits, with an optional plus sign in front; leading zeros are allowed.
-/

namespace ServerFleet
namespace Text

def digitValue? (c : Char) : Option Nat :=
  if c.isDigit then some (c.toNat - '0'.toNat) else none

def natText (n : Nat) : String :=
  String.ofList (Nat.toDigits 10 n)

def padded (width n : Nat) : String :=
  let digits := Nat.toDigits 10 n
  String.ofList (List.replicate (width - digits.length) '0' ++ digits)

def foldDigits? : Nat → List Char → Option Nat
  | n, [] => some n
  | n, c :: rest =>
      match digitValue? c with
      | some d => foldDigits? (n * 10 + d) rest
      | none => none

def spanDigits (s : List Char) : List Char × List Char :=
  s.span Char.isDigit

/-- The value of a list of digits, other characters counted as zero. -/
def digitsValue (s : List Char) : Nat :=
  s.foldl (fun n c => n * 10 + (digitValue? c).getD 0) 0

/-!
# Bounded numbers
-/

inductive DigitsFault where
  | empty
  | badDigit
  | tooLarge
deriving DecidableEq, Repr

def DigitsFault.message : DigitsFault → String
  | .empty => "cannot parse integer from empty string"
  | .badDigit => "invalid digit found in string"
  | .tooLarge => "number too large to fit in target type"

/-- Continues a value below `bound` over further digits, stopping at the first fault. -/
def foldBounded (bound : Nat) : Nat → List Char → Except DigitsFault Nat
  | n, [] => .ok n
  | n, c :: rest =>
      match digitValue? c with
      | none => .error .badDigit
      | some d =>
          let next := n * 10 + d
          if next < bound then foldBounded bound next rest else .error .tooLarge

def readBounded (bound : Nat) (s : List Char) : Except DigitsFault Nat :=
  match s with
  | [] => .error .empty
  | ['+'] => .error .badDigit
  | '+' :: rest => foldBounded bound 0 rest
  | _ => foldBounded bound 0 s

end Text
end ServerFleet
