/-!
# Server numbers

Every server has a small number that is unique within its group while the server
lives.  A new server takes the least positive number that is free.  Numbers are
words of 32 bits: the search goes on with zero behind the largest of them.

A group has an entry as long as it holds a number.  The first one that it takes puts
the entry there, and with the last one that it gives back the entry goes.
-/

namespace ServerFleet

/-- The entries of groups, each with the numbers of its group in ascending order. -/
structure Numbers where
  entries : List (String × List Nat)
deriving DecidableEq, Repr

namespace Numbers

def empty : Numbers :=
  ⟨[]⟩

def numbers? (n : Numbers) (group : String) : Option (List Nat) :=
  n.entries.lookup group

def held (n : Numbers) (group : String) : List Nat :=
  (n.numbers? group).getD []

def isHeld (n : Numbers) (group : String) (number : Nat) : Bool :=
  (n.held group).contains number

/-!
# Entries
-/

def insertNumber (number : Nat) : List Nat → List Nat
  | [] => [number]
  | i :: rest =>
      if number < i then number :: i :: rest
      else if number = i then i :: rest
      else i :: insertNumber number rest

/-- Puts numbers into the entry of a group, or into a new one at the end. -/
def putEntry (group : String) (numbers : List Nat) :
    List (String × List Nat) → List (String × List Nat)
  | [] => [(group, numbers)]
  | e :: rest =>
      if e.1 = group then (group, numbers) :: rest else e :: putEntry group numbers rest

def put (n : Numbers) (group : String) (numbers : List Nat) : Numbers :=
  ⟨putEntry group numbers n.entries⟩

def drop (n : Numbers) (group : String) : Numbers :=
  ⟨n.entries.filter fun e => e.1 != group⟩

def take (n : Numbers) (group : String) (number : Nat) : Numbers :=
  n.put group (insertNumber number (n.held group))

/-!
# Calls
-/

/-- The first of the numbers that are tried for a group: one and upwards, and zero behind the largest word. -/
def candidates (count : Nat) : List Nat :=
  (List.range (min count UInt32.size)).map fun i => (i + 1) % UInt32.size

/-- The first number in the order of trial that is free in a group; `none` if all words are held. -/
def firstFree? (n : Numbers) (group : String) : Option Nat :=
  (candidates ((n.held group).length + 1)).find? fun i => !n.isHeld group i

def allocate (n : Numbers) (group : String) : Nat × Numbers :=
  let number := (n.firstFree? group).getD 0
  (number, n.take group number)

/-- Gives a number back; `false` if it was not held.  An entry that is left empty is dropped. -/
def release (n : Numbers) (group : String) (number : Nat) : Bool × Numbers :=
  match n.numbers? group with
  | none => (false, n)
  | some numbers =>
      let rest := numbers.filter fun i => i != number
      (numbers.contains number, if rest.isEmpty then n.drop group else n.put group rest)

/-- Takes a given number; `false` if it was held before. -/
def reserve (n : Numbers) (group : String) (number : Nat) : Bool × Numbers :=
  (!n.isHeld group number, n.take group number)

end Numbers
end ServerFleet
