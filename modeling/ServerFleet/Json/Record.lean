import ServerFleet.Json.Decode

/-!
# Records

Objects with a fixed set of fields.  A record is also read from an array of its
fields in order.  Unknown members are passed over and a field may stand only once;
fields that are missing are reported in the order of the record, after everything
that is wrong with those that are there.
-/

namespace ServerFleet
namespace Json

structure Field where
  name : String
  optional : Bool
  fault : Source → Reading → Option Error

/-- The fields of a record: how to check each where it stands, and how to put them together. -/
structure Fields (α : Type) where
  fields : List Field
  build : Source → List (String × Reading) → Except Error α

namespace Fields

def errorOf (decode : Decoder α) (source : Source) (r : Reading) : Option Error :=
  match decode source r with
  | .ok _ => none
  | .error e => some e

def find? (name : String) (found : List (String × Reading)) : Option Reading :=
  (found.find? fun m => m.1 == name).map Prod.snd

def required (name : String) (decode : Decoder α) : Fields α where
  fields := [⟨name, false, errorOf decode⟩]
  build source found :=
    match find? name found with
    | some r => decode source r
    | none => mismatch (.missing name)

def optional (name : String) (default : α) (decode : Decoder α) : Fields α where
  fields := [⟨name, true, errorOf decode⟩]
  build source found :=
    match find? name found with
    | some r => decode source r
    | none => .ok default

instance : Functor Fields where
  map f a := ⟨a.fields, fun source found => (a.build source found).map f⟩

instance : Applicative Fields where
  pure a := ⟨[], fun _ _ => .ok a⟩
  seq f a :=
    let a := a ()
    ⟨f.fields ++ a.fields, fun source found =>
      match f.build source found with
      | .error e => .error e
      | .ok g => (a.build source found).map g⟩

/-!
# Members and positions
-/

/-- The known members of an object, in order; `seen` holds the names that stand before. -/
def members (fields : List Field) (source : Source) :
    List String → List (Scan String × Reading) → Except Error (List (String × Reading))
  | _, [] => .ok []
  | seen, (key, r) :: rest =>
      match key.value with
      | .error f => fail f
      | .ok name =>
          match fields.find? fun f => f.name == name with
          | none => stopOn r.passed (members fields source seen rest)
          | some field =>
              if seen.contains name then mismatch (.repeated name)
              else
                match field.fault source r with
                | some e => .error e
                | none =>
                    (members fields source (name :: seen) rest).map fun more =>
                      (name, r) :: more

def firstRequired (index : Nat) : List Field → Option Nat
  | [] => none
  | f :: rest => if f.optional then firstRequired (index + 1) rest else some index

def elementsText (name : String) (fields : List Field) : String :=
  "struct " ++ name ++ " with " ++ Text.natText fields.length ++ " elements"

/-- The error of items behind the last field of a record. -/
def surplus (source : Source) (fields : List Field) (count : Nat) : Except Error α :=
  match source with
  | .text => fail .malformed
  | .collected =>
      mismatch (.length count (Text.natText fields.length ++ " elements in sequence"))
  | .value => mismatch (.length count "fewer elements in array")

def positions (name : String) (all : List Field) (source : Source) (count : Nat) (tail : Tail) :
    Nat → List Field → List Reading → Except Error (List (String × Reading))
  | _, [], [] => stopOn tail.whenDone (.ok [])
  | _, [], _ :: _ => surplus source all count
  | index, f :: rest, [] =>
      stopOn tail.whenMore <|
        match firstRequired index (f :: rest) with
        | some i => mismatch (.length i (elementsText name all))
        | none => .ok []
  | index, f :: rest, r :: items =>
      match f.fault source r with
      | some e => .error e
      | none =>
          (positions name all source count tail (index + 1) rest items).map fun more =>
            (f.name, r) :: more

def record (name : String) (fields : Fields α) : Decoder α := fun source r =>
  match r with
  | .object found tail =>
      match members fields.fields source [] found with
      | .error e => .error e
      | .ok found => stopOn tail.whenMore (fields.build source found)
  | .array items tail =>
      match positions name fields.fields source items.length tail 0 fields.fields items with
      | .error e => .error e
      | .ok found => fields.build source found
  | r => r.unexpected ("struct " ++ name)

end Fields
end Json
end ServerFleet
