import ServerFleet.Json.Value

/-!
# Readings

What can be read of a JSON text, up to the point where it stops being JSON.  A
reading is a document tree in which every place that cannot be read carries its
fault, so that a decoder which walks it in document order meets the first fault
exactly where the text has it.

Passing over a value asks less of it than reading it: a number may be too large
for a double, and a string may hold half of a surrogate pair.
-/

namespace ServerFleet
namespace Json

/-- How a text fails to be JSON: by what it holds, or by ending early. -/
inductive Fault where
  | malformed
  | truncated
deriving DecidableEq, Repr

/-- A scalar as far as it can be read, and the fault met when it is only passed over. -/
structure Scan (α : Type) where
  value : Except Fault α
  passed : Option Fault

inductive Tail where
  | closed
  | stopped (fault : Fault)
  | dangling (fault : Fault)
deriving DecidableEq, Repr

/-- The fault met by one who looks for a further item. -/
def Tail.whenMore : Tail → Option Fault
  | .closed => none
  | .stopped f => some f
  | .dangling f => some f

/-- The fault met by one who looks for the closing bracket. -/
def Tail.whenDone : Tail → Option Fault
  | .closed => none
  | .stopped f => some f
  | .dangling _ => some .malformed

/-- A JSON text as far as it can be read. -/
inductive Reading where
  | absent
  | broken (fault : Fault)
  | null
  | bool (b : Bool)
  | number (n : Scan Numeral)
  | string (s : Scan String)
  | array (items : List Reading) (tail : Tail)
  | object (members : List (Scan String × Reading)) (tail : Tail)

namespace Scan

def ofValue (a : α) : Scan α :=
  ⟨.ok a, none⟩

def fault (f : Fault) : Scan α :=
  ⟨.error f, some f⟩

end Scan

namespace Reading

/-!
# Passing over
-/

mutual

def passed : Reading → Option Fault
  | .absent => some .truncated
  | .broken f => some f
  | .null => none
  | .bool _ => none
  | .number n => n.passed
  | .string s => s.passed
  | .array items tail => (passedItems items).or tail.whenMore
  | .object members tail => (passedMembers members).or tail.whenMore

def passedItems : List Reading → Option Fault
  | [] => none
  | r :: rest => (passed r).or (passedItems rest)

def passedMembers : List (Scan String × Reading) → Option Fault
  | [] => none
  | m :: rest => (m.1.passed.or (passed m.2)).or (passedMembers rest)

end

/-!
# Readings of values
-/

mutual

def ofValue : Value → Reading
  | .null => .null
  | .bool b => .bool b
  | .number n => .number (.ofValue n)
  | .string s => .string (.ofValue s)
  | .array items => .array (ofItems items) .closed
  | .object members => .object (ofMembers members) .closed

def ofItems : List Value → List Reading
  | [] => []
  | v :: rest => ofValue v :: ofItems rest

def ofMembers : List (String × Value) → List (Scan String × Reading)
  | [] => []
  | m :: rest => (.ofValue m.1, ofValue m.2) :: ofMembers rest

end

end Reading
end Json
end ServerFleet
