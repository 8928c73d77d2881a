import ServerFleet.Event.Basic

/-!
# Events as JSON

An event is an object with its kind under `type`; the other members depend on the
kind.  The kind may stand anywhere among the members, so that the others are
collected whole before they are decoded.
-/

namespace ServerFleet

open Json

namespace Cause

def decode : Decoder Cause := fun source r =>
  (Decode.choice (Cause.all.map name) source r).map fun s => (ofName? s).getD .api

def toJson (c : Cause) : Value :=
  .string c.name

end Cause

/-!
# Collecting
-/

/-- How deep the containers of a text may nest where they are collected. -/
def deepest : Nat := 127

mutual

/-- The first fault met in collecting a value, with `depth` more levels allowed. -/
def collectFault : Nat → Reading → Option Fault
  | _, .absent => some .truncated
  | _, .broken f => some f
  | _, .null => none
  | _, .bool _ => none
  | _, .number n => scalarFault n
  | _, .string s => scalarFault s
  | 0, .array _ _ => some .malformed
  | 0, .object _ _ => some .malformed
  | depth + 1, .array items tail => (collectItems depth items).or tail.whenMore
  | depth + 1, .object members tail => (collectMembers depth members).or tail.whenMore

def collectItems : Nat → List Reading → Option Fault
  | _, [] => none
  | depth, r :: rest => (collectFault depth r).or (collectItems depth rest)

def collectMembers : Nat → List (Scan String × Reading) → Option Fault
  | _, [] => none
  | depth, m :: rest =>
      ((scalarFault m.1).or (collectFault depth m.2)).or (collectMembers depth rest)

def scalarFault (s : Scan α) : Option Fault :=
  match s.value with
  | .ok _ => none
  | .error f => some f

end

namespace FleetEvent

def tags : List String :=
  ["start", "stop", "update"]

def decodeTag : Decoder String := fun source r =>
  match Decode.stringAs "variant identifier" source r with
  | .error e => .error e
  | .ok s => Decode.choiceName tags (.ok s)

def members (depth : Nat) (source : Source) :
    Option String → List (Scan String × Reading) →
      Except Error (Option String × List (Scan String × Reading))
  | tag, [] => .ok (tag, [])
  | tag, (key, r) :: rest =>
      match key.value with
      | .error f => fail f
      | .ok name =>
          if name = "type" then
            if tag.isSome then mismatch (.repeated "type")
            else
              match decodeTag source r with
              | .error e => .error e
              | .ok tag => members depth source (some tag) rest
          else
            stopOn (collectFault depth r) <|
              (members depth source tag rest).map fun (tag, more) => (tag, (key, r) :: more)

open Json.Fields in
def ofTag (tag : String) : Decoder FleetEvent :=
  if tag = "start" then
    record "StartEvent" (FleetEvent.start <$> required "server" Server.decode
      <*> required "cause" Cause.decode
      <*> required "timestamp" Server.decodeInstant)
  else if tag = "stop" then
    record "StopEvent" (FleetEvent.stop <$> required "server" Server.decode
      <*> required "cause" Cause.decode
      <*> required "timestamp" Server.decodeInstant)
  else
    record "UpdateEvent" (FleetEvent.update <$> required "before" Server.decode
      <*> required "after" Server.decode
      <*> required "timestamp" Server.decodeInstant)

/-- Decodes an event that stands within `outer` containers.  In an array the kind comes first. -/
def decodeWithin (outer : Nat) : Decoder FleetEvent := fun source r =>
  let depth := deepest - outer - 1
  match r with
  | .object found tail =>
      match members depth source none found with
      | .error e => .error e
      | .ok (tag, rest) =>
          stopOn tail.whenMore <|
            match tag with
            | none => mismatch (.missing "type")
            | some tag => ofTag tag .collected (.object rest .closed)
  | .array [] tail => stopOn tail.whenMore (mismatch (.missing "type"))
  | .array (first :: rest) tail =>
      match decodeTag source first with
      | .error e => .error e
      | .ok tag =>
          stopOn (collectItems depth rest) <|
            stopOn tail.whenMore (ofTag tag .collected (.array rest .closed))
  | r => r.unexpected "internally tagged enum FleetEvent"

def decode : Decoder FleetEvent :=
  decodeWithin 0

def toJson (e : FleetEvent) : Value :=
  let tag := ("type", Value.string e.tag)
  match e with
  | .start server cause time =>
      .object [tag, ("server", server.toJson), ("cause", cause.toJson),
        ("timestamp", .string time.text)]
  | .stop server cause time =>
      .object [tag, ("server", server.toJson), ("cause", cause.toJson),
        ("timestamp", .string time.text)]
  | .update before after time =>
      .object [tag, ("before", before.toJson), ("after", after.toJson),
        ("timestamp", .string time.text)]

end FleetEvent

namespace Envelope

open Json.Fields in
def fields : Fields Envelope :=
  Envelope.mk <$> required "event_id" EventId.decode
    <*> required "topic" Decode.string
    <*> required "event_type" Decode.string
    <*> required "published_at" Server.decodeInstant
    <*> required "event" (FleetEvent.decodeWithin 1)

def decode : Decoder Envelope :=
  Fields.record "EventEnvelope" fields

def toJson (e : Envelope) : Value :=
  .object [
    ("event_id", e.id.toJson),
    ("topic", .string e.topic),
    ("event_type", .string e.typeName),
    ("published_at", .string e.publishedAt.text),
    ("event", e.event.toJson)]

end Envelope
end ServerFleet
