import ServerFleet.Json.Record
import ServerFleet.Model.Properties
import ServerFleet.Text.Blank

/-!
# Groups

A group is a named pool of servers of one kind: how much memory and how many
players each of them takes, how many of them there should be, and by which policy
the demand for further ones is found.
-/

namespace ServerFleet

inductive ScalingPolicy where
  | playerRatio
  | slotRatio
deriving DecidableEq, Repr

namespace ScalingPolicy

def name : ScalingPolicy → String
  | .playerRatio => "player_ratio"
  | .slotRatio => "slot_ratio"

def all : List ScalingPolicy :=
  [.playerRatio, .slotRatio]

/-- The policy with a name; an unknown name means the first one. -/
def ofName (s : String) : ScalingPolicy :=
  (all.find? fun p => p.name == s).getD .playerRatio

def decode : Json.Decoder ScalingPolicy := fun source r =>
  (Json.Decode.choice (all.map name) source r).map ofName

def toJson (p : ScalingPolicy) : Json.Value :=
  .string p.name

end ScalingPolicy

structure Group where
  name : String
  serverType : String
  memoryMin : UInt32
  memoryMax : UInt32
  startPort : UInt16
  minOnline : UInt32
  maxOnline : UInt32
  maxPlayers : UInt32
  newInstanceRatio : UInt32
  policy : ScalingPolicy
  properties : Properties
deriving DecidableEq

inductive GroupError where
  | empty (field : String)
  | invertedBounds (field : String) (min max : Nat)
  | outOfRange (field reason : String)
deriving DecidableEq, Repr

def GroupError.message : GroupError → String
  | .empty field => field ++ " cannot be empty"
  | .invertedBounds field min max =>
      field ++ ": minimum " ++ Text.natText min ++ " exceeds maximum " ++ Text.natText max
  | .outOfRange field reason => field ++ " out of range: " ++ reason

namespace Group

def validate (g : Group) : Except GroupError Unit :=
  if Text.isBlankText g.name then .error (.empty "name")
  else if Text.isBlankText g.serverType then .error (.empty "server_type")
  else if g.memoryMax < g.memoryMin then
    .error (.invertedBounds "memory_mb" g.memoryMin.toNat g.memoryMax.toNat)
  else if g.maxOnline < g.minOnline then
    .error (.invertedBounds "online_count" g.minOnline.toNat g.maxOnline.toNat)
  else if g.maxPlayers = 0 then .error (.outOfRange "max_players" "must be at least 1")
  else if 100 < g.newInstanceRatio then
    .error (.outOfRange "new_instance_ratio"
      (Text.natText g.newInstanceRatio.toNat ++ " is not a percentage"))
  else .ok ()

/-- The port of the server with a number: numbers count up from the first port, in words of 32 bits, and
ports end. -/
def portOf (g : Group) (number : UInt32) : UInt16 :=
  let port := UInt32.ofNat g.startPort.toNat + number - 1
  UInt16.ofNat (min 65535 port.toNat)

open Json in
def fields : Fields Group :=
  Group.mk <$> .required "name" Decode.string
    <*> .required "server_type" Decode.string
    <*> .required "memory_min_mb" Decode.word32
    <*> .required "memory_max_mb" Decode.word32
    <*> .required "start_port" Decode.word16
    <*> .required "min_online_count" Decode.word32
    <*> .required "max_online_count" Decode.word32
    <*> .required "max_players" Decode.word32
    <*> .required "new_instance_ratio" Decode.word32
    <*> .optional "scaling_policy" .playerRatio ScalingPolicy.decode
    <*> .optional "properties" .empty Properties.decode

def decode : Json.Decoder Group :=
  Json.Fields.record "Group" fields

def toJson (g : Group) : Json.Value :=
  .object [
    ("name", .string g.name),
    ("server_type", .string g.serverType),
    ("memory_min_mb", .nat g.memoryMin.toNat),
    ("memory_max_mb", .nat g.memoryMax.toNat),
    ("start_port", .nat g.startPort.toNat),
    ("min_online_count", .nat g.minOnline.toNat),
    ("max_online_count", .nat g.maxOnline.toNat),
    ("max_players", .nat g.maxPlayers.toNat),
    ("new_instance_ratio", .nat g.newInstanceRatio.toNat),
    ("scaling_policy", g.policy.toJson),
    ("properties", g.properties.toJson)]

end Group
end ServerFleet
