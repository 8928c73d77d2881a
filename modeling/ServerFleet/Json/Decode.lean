import ServerFleet.Json.Reader
import ServerFleet.Text.Visible

/-!
# Decoding

Typed values from readings.  A decoder walks a reading in document order and stops
at the first thing that is wrong with it, be it a fault of the text or a value of
the wrong shape.
-/

namespace ServerFleet
namespace Json

inductive Found where
  | null
  | bool (b : Bool)
  | number (n : Numeral)
  | string (s : String)
  | sequence
  | mapping

def Found.text : Found → String
  | .null => "null"
  | .bool true => "boolean `true`"
  | .bool false => "boolean `false`"
  | .number (.real x) => "floating point `" ++ String.ofList (x.text layout) ++ "`"
  | .number n => "integer `" ++ String.ofList n.text ++ "`"
  | .string s => "string " ++ Text.visible s
  | .sequence => "sequence"
  | .mapping => "map"

inductive Mismatch where
  | kind (found : Found) (expected : String)
  | range (found : Found) (expected : String)
  | length (count : Nat) (expected : String)
  | variant (name : String) (known : List String)
  | missing (field : String)
  | repeated (field : String)
  | content (message : String)

def choiceText : List String → String
  | [] => "there are no variants"
  | [a] => "expected `" ++ a ++ "`"
  | [a, b] => "expected `" ++ a ++ "` or `" ++ b ++ "`"
  | names => "expected one of " ++ ", ".intercalate (names.map fun n => "`" ++ n ++ "`")

def Mismatch.message : Mismatch → String
  | .kind found expected => "invalid type: " ++ found.text ++ ", expected " ++ expected
  | .range found expected => "invalid value: " ++ found.text ++ ", expected " ++ expected
  | .length n expected => "invalid length " ++ Text.natText n ++ ", expected " ++ expected
  | .variant name known => "unknown variant `" ++ name ++ "`, " ++ choiceText known
  | .missing field => "missing field `" ++ field ++ "`"
  | .repeated field => "duplicate field `" ++ field ++ "`"
  | .content message => message

inductive Error where
  | text (fault : Fault)
  | shape (mismatch : Mismatch)

/-- Where a reading comes from: straight from text, from collected content, or from a value at hand. -/
inductive Source where
  | text
  | collected
  | value
deriving DecidableEq, Repr

abbrev Decoder (α : Type) := Source → Reading → Except Error α

def fail (f : Fault) : Except Error α :=
  .error (.text f)

def mismatch (m : Mismatch) : Except Error α :=
  .error (.shape m)

def stopOn (f : Option Fault) (next : Except Error α) : Except Error α :=
  match f with
  | none => next
  | some f => fail f

def Reading.unexpected (expected : String) : Reading → Except Error α
  | .absent => fail .truncated
  | .broken f => fail f
  | .null => mismatch (.kind .null expected)
  | .bool b => mismatch (.kind (.bool b) expected)
  | .number n =>
      match n.value with
      | .ok n => mismatch (.kind (.number n) expected)
      | .error f => fail f
  | .string s =>
      match s.value with
      | .ok s => mismatch (.kind (.string s) expected)
      | .error f => fail f
  | .array _ _ => mismatch (.kind .sequence expected)
  | .object _ _ => mismatch (.kind .mapping expected)

namespace Decode

/-!
# Scalars
-/

def stringAs (expected : String) : Decoder String := fun _ r =>
  match r with
  | .string s =>
      match s.value with
      | .ok s => .ok s
      | .error f => fail f
  | r => r.unexpected expected

def string : Decoder String :=
  stringAs "a string"

def natural (bound : Nat) (expected : String) : Decoder Nat := fun _ r =>
  match r with
  | .number n =>
      match n.value with
      | .error f => fail f
      | .ok (.real x) => mismatch (.kind (.number (.real x)) expected)
      | .ok (.negative n) => mismatch (.range (.number (.negative n)) expected)
      | .ok (.natural n) =>
          if n < bound then .ok n else mismatch (.range (.number (.natural n)) expected)
  | r => r.unexpected expected

def word16 : Decoder UInt16 := fun source r =>
  (natural UInt16.size "u16" source r).map UInt16.ofNat

def word32 : Decoder UInt32 := fun source r =>
  (natural UInt32.size "u32" source r).map UInt32.ofNat

def word64 : Decoder UInt64 := fun source r =>
  (natural UInt64.size "u64" source r).map UInt64.ofNat

def parsed (expected : String) (read : String → Except String α) : Decoder α := fun source r =>
  match stringAs expected source r with
  | .error e => .error e
  | .ok s =>
      match read s with
      | .ok a => .ok a
      | .error message => mismatch (.content message)

/-- Nothing, which a place without content may hold. -/
def nothing : Decoder Unit := fun source r =>
  match source, r with
  | _, .null => .ok ()
  | .collected, .object [] .closed => .ok ()
  | _, r => r.unexpected "unit"

/-!
# Maps and choices
-/

def entries (source : Source) :
    List (Scan String × Reading) → Except Error (List (String × String))
  | [] => .ok []
  | (key, r) :: rest =>
      match key.value with
      | .error f => fail f
      | .ok k =>
          match string source r with
          | .error e => .error e
          | .ok v => (entries source rest).map fun more => (k, v) :: more

def stringMap : Decoder (List (String × String)) := fun source r =>
  match r with
  | .object members tail =>
      match entries source members with
      | .error e => .error e
      | .ok found => stopOn tail.whenMore (.ok found)
  | r => r.unexpected "a map"

def choiceName (known : List String) (name : Except Fault String) : Except Error String :=
  match name with
  | .error f => fail f
  | .ok s => if known.contains s then .ok s else mismatch (.variant s known)

/-- One of several names, alone or as the only key of an object that gives it no content. -/
def choice (known : List String) : Decoder String := fun source r =>
  match source, r with
  | _, .string s => choiceName known s.value
  | .text, .object ((key, r) :: rest) tail => do
      let name ← choiceName known key.value
      nothing .text r
      if rest.isEmpty then stopOn tail.whenDone (.ok name) else fail .malformed
  | .text, .object [] (.stopped f) => fail f
  | .text, .object [] _ => fail .malformed
  | .text, .absent => fail .truncated
  | .text, _ => fail .malformed
  | source, .object [(key, r)] _ => do
      let name ← choiceName known key.value
      nothing source r
      return name
  | _, .object _ _ => mismatch (.range .mapping "map with a single key")
  | _, r => r.unexpected "string or map"

/-!
# Any value
-/

mutual

def value : Reading → Except Error Value
  | .absent => fail .truncated
  | .broken f => fail f
  | .null => .ok .null
  | .bool b => .ok (.bool b)
  | .number n => (n.value.mapError Error.text).map .number
  | .string s => (s.value.mapError Error.text).map .string
  | .array items tail =>
      match values items with
      | .error e => .error e
      | .ok vs => stopOn tail.whenMore (.ok (.array vs))
  | .object found tail =>
      match members found with
      | .error e => .error e
      | .ok ms => stopOn tail.whenMore (.ok (.object ms))

def values : List Reading → Except Error (List Value)
  | [] => .ok []
  | r :: rest =>
      match value r with
      | .error e => .error e
      | .ok v => (values rest).map (v :: ·)

def members : List (Scan String × Reading) → Except Error (List (String × Value))
  | [] => .ok []
  | m :: rest =>
      match m.1.value with
      | .error f => fail f
      | .ok key =>
          match value m.2 with
          | .error e => .error e
          | .ok v => (members rest).map ((key, v) :: ·)

end

def any : Decoder Value := fun _ r => value r

end Decode

/-!
# Whole texts
-/

def decodeText (decode : Decoder α) (text : String) : Except Error α :=
  let document := Document.ofText text
  match decode .text document.reading with
  | .error e => .error e
  | .ok a => if document.complete then .ok a else fail .malformed

def decodeValue (decode : Decoder α) (v : Value) : Except Error α :=
  decode .value (Reading.ofValue v)

end Json
end ServerFleet
