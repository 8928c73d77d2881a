import ServerFleet.Text.Percent
import ServerFleet.Text.Digits

/-!
# Socket addresses

An internet address of version 4 or 6 with a port.  Of version 6 the text is
canonical: groups without leading zeros, and two colons for the first of the
longest runs of more than one zero group.
-/

namespace ServerFleet
namespace Net

inductive SocketAddress where
  | v4 (octets : List Nat) (port : Nat)
  | v6 (groups : List Nat) (scope port : Nat)
deriving DecidableEq, Repr

namespace SocketAddress

def port : SocketAddress → Nat
  | .v4 _ port => port
  | .v6 _ _ port => port

def isV6 : SocketAddress → Bool
  | .v4 .. => false
  | .v6 .. => true

/-!
# Reading
-/

def number? (digit? : Char → Option Nat) (base : Nat) (s : List Char) :
    Option (Nat × List Char × List Char) :=
  let digits := s.takeWhile fun c => (digit? c).isSome
  let n := digits.foldl (fun n c => n * base + (digit? c).getD 0) 0
  if digits.isEmpty then none else some (n, digits, s.drop digits.length)

/-- Reads one octet: up to three digits without a leading zero. -/
def octet? (s : List Char) : Option (Nat × List Char) :=
  match number? Text.digitValue? 10 s with
  | none => none
  | some (n, digits, rest) =>
      if digits.length ≤ 3 ∧ n < 256 ∧ (digits.head? ≠ some '0' ∨ digits.length = 1) then
        some (n, rest)
      else none

def mark? (c : Char) : List Char → Option (List Char)
  | d :: rest => if c = d then some rest else none
  | [] => none

def octets? (s : List Char) : Option (List Nat × List Char) := do
  let (a, s) ← octet? s
  let s ← mark? '.' s
  let (b, s) ← octet? s
  let s ← mark? '.' s
  let (c, s) ← octet? s
  let s ← mark? '.' s
  let (d, s) ← octet? s
  return ([a, b, c, d], s)

def group? (s : List Char) : Option (Nat × List Char) :=
  match number? Text.hexValue? 16 s with
  | none => none
  | some (n, digits, rest) => if digits.length ≤ 4 then some (n, rest) else none

def groupsOfOctets : List Nat → List Nat
  | [a, b, c, d] => [a * 256 + b, c * 256 + d]
  | _ => []

/-- Reads up to `room` groups; four octets may stand for the last two.  Also tells whether they do. -/
def groups (first : Bool) : Nat → List Char → List Nat × Bool × List Char
  | 0, s => ([], false, s)
  | room + 1, s =>
      let start := if first then some s else mark? ':' s
      match start with
      | none => ([], false, s)
      | some body =>
          let octets := if room = 0 then none else octets? body
          match octets with
          | some (octets, rest) => (groupsOfOctets octets, true, rest)
          | none =>
              match group? body with
              | none => ([], false, s)
              | some (g, rest) =>
                  let (more, octets, rest) := groups false room rest
                  (g :: more, octets, rest)

def address6? (s : List Char) : Option (List Nat × List Char) :=
  let (front, octets, rest) := groups true 8 s
  if front.length = 8 then some (front, rest)
  else if octets then none
  else do
    let rest ← mark? ':' rest
    let rest ← mark? ':' rest
    let (back, _, rest) := groups true (7 - front.length) rest
    return (front ++ List.replicate (8 - front.length - back.length) 0 ++ back, rest)

def port? (s : List Char) : Option Nat := do
  let s ← mark? ':' s
  let (n, _, rest) ← number? Text.digitValue? 10 s
  if n < UInt16.size ∧ rest.isEmpty then some n else none

def scope (s : List Char) : Nat × List Char :=
  let found : Option (Nat × List Char) := do
    let rest ← mark? '%' s
    let (n, _, rest) ← number? Text.digitValue? 10 rest
    if n < UInt32.size then some (n, rest) else none
  found.getD (0, s)

def ofText? (s : String) : Option SocketAddress :=
  let v4 : Option SocketAddress := do
    let (octets, rest) ← octets? s.toList
    let port ← port? rest
    return .v4 octets port
  let v6 : Option SocketAddress := do
    let rest ← mark? '[' s.toList
    let (groups, rest) ← address6? rest
    let (scope, rest) := scope rest
    let rest ← mark? ']' rest
    let port ← port? rest
    return .v6 groups scope port
  v4.or v6

/-!
# Writing
-/

def octetsText (octets : List Nat) : String :=
  ".".intercalate (octets.map Text.natText)

def groupsText (groups : List Nat) : String :=
  ":".intercalate (groups.map fun g => String.ofList (Nat.toDigits 16 g))

def zerosAhead (groups : List Nat) : Nat :=
  (groups.takeWhile (· == 0)).length

/-- The start and length of the first of the longest runs of zero groups. -/
def longestZeros (groups : List Nat) : Nat × Nat :=
  (List.range groups.length).foldl (fun best i =>
    let n := zerosAhead (groups.drop i)
    if best.2 < n then (i, n) else best) (0, 0)

def address6Text (groups : List Nat) : String :=
  match groups with
  | [0, 0, 0, 0, 0, 0xffff, a, b] =>
      "::ffff:" ++ octetsText [a / 256, a % 256, b / 256, b % 256]
  | _ =>
      let (start, length) := longestZeros groups
      if 1 < length then
        groupsText (groups.take start) ++ "::" ++ groupsText (groups.drop (start + length))
      else groupsText groups

def text : SocketAddress → String
  | .v4 octets port => octetsText octets ++ ":" ++ Text.natText port
  | .v6 groups scope port =>
      let scope := if scope = 0 then "" else "%" ++ Text.natText scope
      "[" ++ address6Text groups ++ scope ++ "]:" ++ Text.natText port

end SocketAddress
end Net
end ServerFleet
