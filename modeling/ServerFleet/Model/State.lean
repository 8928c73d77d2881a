import ServerFleet.Json.Decode
import ServerFleet.Text.Blank

/-!
# Server states

The state of a server is a name in canonical spelling: without blanks at its ends
and with ASCII letters raised.  Three names have a meaning of their own.
-/

namespace ServerFleet

def canonicalName (s : String) : String :=
  Text.upperAscii (Text.trim s)

theorem canonicalName_canonicalName (s : String) :
    canonicalName (canonicalName s) = canonicalName s := by
  simp only [canonicalName, Text.trim_upperAscii, Text.trim_trim, Text.upperAscii_upperAscii]

structure ServerState where
  name : String
  canonical : canonicalName name = name
deriving DecidableEq, Repr

namespace ServerState

def ofText (s : String) : ServerState :=
  ⟨canonicalName s, canonicalName_canonicalName s⟩

def preparing : ServerState := ofText "PREPARING"

def online : ServerState := ofText "ONLINE"

def ingame : ServerState := ofText "INGAME"

/-- Busy servers do not count as available. -/
def isBusy (s : ServerState) : Bool :=
  s = ingame

theorem ofText_name (s : ServerState) :
    ofText s.name = s := by
  cases s with
  | mk name canonical =>
      simp [ofText, canonical]

def decode : Json.Decoder ServerState := fun source r =>
  (Json.Decode.string source r).map ofText

def toJson (s : ServerState) : Json.Value :=
  .string s.name

end ServerState
end ServerFleet
