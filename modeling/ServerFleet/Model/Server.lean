import ServerFleet.Id.Basic
import ServerFleet.Json.Record
import ServerFleet.Model.Load
import ServerFleet.Model.Properties
import ServerFleet.Model.State
import ServerFleet.Time.Stamp

/-!
# Servers

The record of one server: which group it belongs to and under which number, where
it runs, what it was given, and what its host last said about it.
-/

namespace ServerFleet

structure Server where
  id : ServerId
  group : String
  serverType : String
  number : UInt32
  hostId : HostId
  address : String
  port : UInt16
  memoryMin : UInt32
  memoryMax : UInt32
  maxPlayers : UInt32
  playerCount : UInt32
  properties : Properties
  state : ServerState
  createdAt : Time.Instant
  updatedAt : Time.Instant
deriving DecidableEq

namespace Server

def displayName (s : Server) : String :=
  s.group ++ "-" ++ Text.natText s.number.toNat

def load (s : Server) : Load :=
  ⟨s.playerCount.toNat, s.maxPlayers.toNat⟩

def decodeInstant : Json.Decoder Time.Instant :=
  Json.Decode.parsed "an RFC 3339 formatted date and time string" fun s =>
    (Time.Instant.ofText s).mapError Time.StampFault.message

open Json in
def fields : Fields Server :=
  Server.mk <$> .required "id" Id.decode
    <*> .required "group" Decode.string
    <*> .required "server_type" Decode.string
    <*> .required "numeric_id" Decode.word32
    <*> .required "host_id" Id.decode
    <*> .required "address" Decode.string
    <*> .required "port" Decode.word16
    <*> .required "memory_min_mb" Decode.word32
    <*> .required "memory_max_mb" Decode.word32
    <*> .required "max_players" Decode.word32
    <*> .optional "player_count" 0 Decode.word32
    <*> .optional "properties" .empty Properties.decode
    <*> .required "state" ServerState.decode
    <*> .required "created_at" decodeInstant
    <*> .required "updated_at" decodeInstant

def decode : Json.Decoder Server :=
  Json.Fields.record "Server" fields

def toJson (s : Server) : Json.Value :=
  .object [
    ("id", s.id.toJson),
    ("group", .string s.group),
    ("server_type", .string s.serverType),
    ("numeric_id", .nat s.number.toNat),
    ("host_id", s.hostId.toJson),
    ("address", .string s.address),
    ("port", .nat s.port.toNat),
    ("memory_min_mb", .nat s.memoryMin.toNat),
    ("memory_max_mb", .nat s.memoryMax.toNat),
    ("max_players", .nat s.maxPlayers.toNat),
    ("player_count", .nat s.playerCount.toNat),
    ("properties", s.properties.toJson),
    ("state", s.state.toJson),
    ("created_at", .string s.createdAt.text),
    ("updated_at", .string s.updatedAt.text)]

end Server
end ServerFleet
