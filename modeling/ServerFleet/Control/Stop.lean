import ServerFleet.Control.Start

/-!
# Stopping a server

A record is only removed once the host has confirmed the termination.  A server
whose launch is still in flight cannot be stopped.
-/

namespace ServerFleet

structure Stopping where
  host : Host
  server : Server
  cause : Cause
deriving DecidableEq

def Stopping.call (s : Stopping) : AgentCall :=
  .terminate s.host s.server

namespace Controller

def beginStop (c : Controller) (id : ServerId) (cause : Cause) :
    Progress Stopping ServerResult :=
  match c.store.get? id with
  | none => .done (.error (.serverNotFound id))
  | some server =>
      if c.store.isLaunching id then .done (.error (.launchInProgress id))
      else
        match c.host? server.hostId with
        | none => .done (.error (.hostNotFound server.hostId))
        | some host => .waiting ⟨host, server, cause⟩

def finishStop (c : Controller) (env : Env) (s : Stopping) (answer : Answer) :
    Controller × ServerResult :=
  match answer with
  | .error e => (c, .error (.agent e))
  | .ok _ =>
      match c.store.remove s.server.id with
      | .error e => (c, .error (.storage e))
      | .ok none => (c, .error (.serverNotFound s.server.id))
      | .ok (some (removed, store)) =>
          let c := { c with store }.releaseNumber removed
          (c.publish env (.stop removed s.cause env.now), .ok removed)

def serverByNumber (c : Controller) (group : String) (number : Nat) : ServerResult :=
  match c.store.byNumber? group number with
  | some s => .ok s
  | none => .error (.numberNotFound group number)

end Controller
end ServerFleet
