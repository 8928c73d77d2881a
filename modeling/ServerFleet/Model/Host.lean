import ServerFleet.Id.Basic
import ServerFleet.Json.Record

/-!
# Hosts

A host runs an agent that launches and terminates servers on it.
-/

namespace ServerFleet

/-- A host: the address of the servers on it, and the base address of its agent. -/
structure Host where
  id : HostId
  address : String
  endpoint : String
deriving DecidableEq, Repr

namespace Host

open Json in
def fields : Fields Host :=
  Host.mk <$> .required "id" Id.decode
    <*> .required "address" Decode.string
    <*> .required "endpoint" Decode.string

def decode : Json.Decoder Host :=
  Json.Fields.record "HostDescriptor" fields

def toJson (h : Host) : Json.Value :=
  .object [
    ("id", h.id.toJson),
    ("address", .string h.address),
    ("endpoint", .string h.endpoint)]

end Host
end ServerFleet
