import ServerFleet.Id.Base32
import ServerFleet.Json.Decode
import ServerFleet.Text.Split

/-!
# Identifiers

Servers, hosts and requests have 128-bit identifiers, written as the prefix of
their kind, an underscore and 26 digits in base 32.  Identifiers of one kind are
ordered by their value.  Events are numbered in the order of their publication.
-/

namespace ServerFleet

inductive IdKind where
  | server
  | host
  | request
deriving DecidableEq, Repr

def IdKind.tag : IdKind → String
  | .server => "srv"
  | .host => "host"
  | .request => "req"

structure Id (kind : IdKind) where
  value : Nat
  value_lt : value < Base32.capacity
deriving DecidableEq, Repr

abbrev ServerId := Id .server
abbrev HostId := Id .host
abbrev RequestId := Id .request

inductive IdError where
  | empty
  | wrongPrefix (expected actual : String)
  | missingSeparator
  | digits (fault : Base32.Fault)
deriving DecidableEq, Repr

namespace IdError

def message : IdError → String
  | .empty => "ID cannot be empty"
  | .wrongPrefix expected actual =>
      "invalid ID prefix: expected '" ++ expected ++ "', got '" ++ actual ++ "'"
  | .missingSeparator => "ID missing underscore separator"
  | .digits fault => "invalid ULID: " ++ fault.message

def isWrongPrefix : IdError → Bool
  | .wrongPrefix _ _ => true
  | _ => false

end IdError

namespace Id

variable {kind : IdKind}

/-- The identifier whose value is the lowest 128 bits of a number. -/
def ofNat (n : Nat) : Id kind :=
  ⟨n % Base32.capacity, Nat.mod_lt _ (by decide)⟩

def text (id : Id kind) : String :=
  kind.tag ++ "_" ++ Base32.encode id.value

/-- The milliseconds of an identifier's creation: its upper 48 bits. -/
def millis (id : Id kind) : Nat :=
  id.value >>> 80

def ofText (s : String) : Except IdError (Id kind) :=
  if s.isEmpty then .error .empty
  else
    match Text.splitLast? '_' s.toList with
    | none => .error .missingSeparator
    | some (front, back) =>
        let actual := String.ofList front
        if actual ≠ kind.tag then .error (.wrongPrefix kind.tag actual)
        else
          match Base32.decode (String.ofList back) with
          | .ok n => .ok (ofNat n)
          | .error fault => .error (.digits fault)

def decode : Json.Decoder (Id kind) :=
  Json.Decode.parsed "a string" fun s => (ofText s).mapError IdError.message

def toJson (id : Id kind) : Json.Value :=
  .string id.text

/-!
# Order
-/

def insertSorted (id : Id kind) : List (Id kind) → List (Id kind)
  | [] => [id]
  | x :: rest =>
      if id.value < x.value then id :: x :: rest
      else if id = x then x :: rest
      else x :: insertSorted id rest

def sorted (ids : List (Id kind)) : List (Id kind) :=
  ids.foldr insertSorted []

end Id

structure EventId where
  value : UInt64
deriving DecidableEq, Repr

namespace EventId

def text (id : EventId) : String :=
  Text.natText id.value.toNat

def toJson (id : EventId) : Json.Value :=
  .nat id.value.toNat

def decode : Json.Decoder EventId := fun source r =>
  (Json.Decode.word64 source r).map EventId.mk

end EventId
end ServerFleet
