import ServerFleet.Number.Shortest
import ServerFleet.Text.Digits

/-!
# JSON values

Values of the JSON data format.  Objects keep their members in order.  Numbers are
whole where they were written without fraction and exponent and fit 64 bits, and
doubles otherwise.
-/

namespace ServerFleet
namespace Json

/-- A JSON number: a natural number, `-n` for a positive `n`, or a double. -/
inductive Numeral where
  | natural (n : Nat)
  | negative (n : Nat)
  | real (x : Number.Binary64)
deriving DecidableEq, Repr

/-- Doubles are written positionally from `1e-5` up to sixteen digits before the point. -/
def layout : Number.Layout where
  leastExponent := -5
  greatestExponent := 15

def Numeral.text : Numeral → List Char
  | .natural n => Nat.toDigits 10 n
  | .negative n => '-' :: Nat.toDigits 10 n
  | .real x => x.text layout

inductive Value where
  | null
  | bool (b : Bool)
  | number (n : Numeral)
  | string (s : String)
  | array (items : List Value)
  | object (members : List (String × Value))
deriving Repr, Inhabited

namespace Value

def nat (n : Nat) : Value :=
  .number (.natural n)

/-- The member with a key; of several the last one counts. -/
def member? (key : String) : Value → Option Value
  | .object members => (members.reverse.find? fun m => m.1 == key).map Prod.snd
  | _ => none

def string? : Value → Option String
  | .string s => some s
  | _ => none

def nat? : Value → Option Nat
  | .number (.natural n) => some n
  | _ => none

/-!
# Order of keys
-/

def setMember (key : String) (v : Value) : List (String × Value) → List (String × Value)
  | [] => [(key, v)]
  | m :: rest =>
      if key < m.1 then (key, v) :: m :: rest
      else if key = m.1 then (key, v) :: rest
      else m :: setMember key v rest

mutual

/-- The value with all members in the order of their keys; of several under one key the last counts. -/
def sortKeys : Value → Value
  | .null => .null
  | .bool b => .bool b
  | .number n => .number n
  | .string s => .string s
  | .array items => .array (sortItems items)
  | .object members => .object (sortMembers [] members)

def sortItems : List Value → List Value
  | [] => []
  | v :: rest => sortKeys v :: sortItems rest

def sortMembers (sorted : List (String × Value)) :
    List (String × Value) → List (String × Value)
  | [] => sorted
  | m :: rest => sortMembers (setMember m.1 (sortKeys m.2) sorted) rest

end

end Value
end Json
end ServerFleet
