import ServerFleet.Event.Codec
import ServerFleet.Http.MediaType
import ServerFleet.Http.Message

/-!
# Request bodies

What the bodies of requests hold.  A body must be said to be JSON.  One that is not
JSON, or of the wrong shape, is rejected in plain words.
-/

namespace ServerFleet
namespace Api

open Json

def decodeBody (decode : Decoder α) (r : Http.Request) : Except Http.Response α :=
  let isJson := match r.header? "Content-Type" with
    | some value => Http.isHeaderText value && Http.isJsonType value
    | none => false
  if !isJson then .error (.plain 415)
  else
    match decodeText decode r.body with
    | .ok a => .ok a
    | .error (.text _) => .error (.plain 400)
    | .error (.shape _) => .error (.plain 422)

structure StartBody where
  group : String
  cause : Cause

def StartBody.decode : Decoder StartBody :=
  Fields.record "start" <|
    StartBody.mk <$> .required "group" Decode.string
      <*> .optional "cause" .api Cause.decode

def decodeState : Decoder String :=
  Fields.record "state" (.required "state" Decode.string)

def decodeValue : Decoder String :=
  Fields.record "value" (.required "value" Decode.string)

def nullable (decode : Decoder α) : Decoder (Option α) := fun source r =>
  match r with
  | .null => .ok none
  | r => (decode source r).map some

/-- Registers a host, with a new identifier if it brings none. -/
structure HostBody where
  id : Option HostId
  address : String
  endpoint : String

def HostBody.decode : Decoder HostBody :=
  Fields.record "registration" <|
    HostBody.mk <$> .optional "id" none (nullable Id.decode)
      <*> .required "address" Decode.string
      <*> .required "endpoint" Decode.string

end Api
end ServerFleet
