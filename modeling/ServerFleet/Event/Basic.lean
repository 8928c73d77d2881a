import ServerFleet.Model.Server

/-!
# Events

What happens to servers during their lives: a host has confirmed one, one is gone
for good, or the record of one was overridden.  A published event travels in an
envelope with its number and topic.
-/

namespace ServerFleet

inductive Cause where
  | scaleUp
  | api
  | hostLost
deriving DecidableEq, Repr

def Cause.name : Cause → String
  | .scaleUp => "SCALE_UP"
  | .api => "API"
  | .hostLost => "HOST_LOST"

def Cause.all : List Cause :=
  [.scaleUp, .api, .hostLost]

def Cause.ofName? (s : String) : Option Cause :=
  Cause.all.find? fun c => c.name == s

inductive FleetEvent where
  | start (server : Server) (cause : Cause) (time : Time.Instant)
  | stop (server : Server) (cause : Cause) (time : Time.Instant)
  | update (before after : Server) (time : Time.Instant)
deriving DecidableEq

namespace FleetEvent

def tag : FleetEvent → String
  | .start .. => "start"
  | .stop .. => "stop"
  | .update .. => "update"

def typeName : FleetEvent → String
  | .start .. => "server.started"
  | .stop .. => "server.stopped"
  | .update .. => "server.updated"

/-- The server that an event is about, as it was afterwards. -/
def server : FleetEvent → Server
  | .start server _ _ => server
  | .stop server _ _ => server
  | .update _ after _ => after

def time : FleetEvent → Time.Instant
  | .start _ _ time => time
  | .stop _ _ time => time
  | .update _ _ time => time

end FleetEvent

structure Envelope where
  id : EventId
  topic : String
  typeName : String
  publishedAt : Time.Instant
  event : FleetEvent
deriving DecidableEq

def eventTopic : String := "event"

end ServerFleet
