/-!
# Base 32

Numbers of 128 bits as 26 digits of five bits, most significant digit first.  The
digits are `0` to `9` and the letters without `I`, `L`, `O` and `U`; small letters
are read like capital ones.
-/

namespace ServerFleet
namespace Base32

def alphabet : List Char :=
  "0123456789ABCDEFGHJKMNPQRSTVWXYZ".toList

def capacity : Nat := UInt64.size * UInt64.size

def width : Nat := 26

def digit (n : Nat) : Char :=
  alphabet.getD (n % 32) '0'

def value? (c : Char) : Option Nat :=
  alphabet.idxOf? c.toUpper

/-- The last `count` digits of a number. -/
def digits : Nat → Nat → List Char
  | 0, _ => []
  | count + 1, n => digits count (n / 32) ++ [digit n]

/-- Continues a number over further digits; `none` at any other character. -/
def fold? : Nat → List Char → Option Nat
  | n, [] => some n
  | n, c :: rest =>
      match value? c with
      | some d => fold? (n * 32 + d) rest
      | none => none

inductive Fault where
  | length
  | character
deriving DecidableEq, Repr

def Fault.message : Fault → String
  | .length => "invalid length"
  | .character => "invalid character"

def encode (n : Nat) : String :=
  String.ofList (digits width n)

/-- Reads a text of 26 bytes; of the 130 bits that its digits hold the lowest 128 count. -/
def decode (s : String) : Except Fault Nat :=
  if s.utf8ByteSize ≠ width then .error .length
  else
    match fold? 0 s.toList with
    | some n => .ok (n % capacity)
    | none => .error .character

end Base32
end ServerFleet
