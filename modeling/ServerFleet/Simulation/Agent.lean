import ServerFleet.Agent.Call
import ServerFleet.Json.Record

/-!
# Scripted agents

Agents as a run has them: answers that were laid down for the next calls of a kind,
and a stand-in that gives the answers for all other calls.
-/

namespace ServerFleet
namespace Simulation

/-- An agent that confirms what it is asked, unless it is told to fail. -/
structure StandIn where
  launchDelay : Nat
  failLaunch : Bool
  failTerminate : Bool
  lost : List ServerId
  launches : Nat
  terminations : Nat
  reattaches : Nat

namespace StandIn

def new (launchDelay : Nat) : StandIn :=
  ⟨launchDelay, false, false, [], 0, 0, 0⟩

def count (a : StandIn) : AgentCall → StandIn
  | .launch .. => { a with launches := a.launches + 1 }
  | .terminate .. => { a with terminations := a.terminations + 1 }
  | .reattach .. => { a with reattaches := a.reattaches + 1 }

def delay (a : StandIn) : AgentCall → Nat
  | .launch .. => a.launchDelay
  | .terminate .. => 0
  | .reattach .. => 0

def answer (a : StandIn) : AgentCall → Answer
  | .launch host _ server =>
      if a.failLaunch then .error (.unreachable "mock host configured to fail")
      else .ok { server with address := host.address, state := .online }
  | .terminate _ server =>
      if a.failTerminate then .error (.rejected 503 "mock host configured to fail")
      else .ok server
  | .reattach host server =>
      if a.lost.contains server.id then .error (.rejected 404 ("unknown server " ++ server.id.text))
      else .ok { server with address := host.address }

end StandIn

/-!
# Laid down answers
-/

/-- What is laid down for a call: an error, a record with some fields changed, or nothing. -/
inductive Line where
  | fail (error : AgentError)
  | change (fields : List (String × Json.Value))
  | pass

structure Cue where
  delay : Nat
  line : Line

def overwrite (s : Server) (fields : List (String × Json.Value)) : Except Json.Error Server :=
  let members := match s.toJson with
    | .object members => members
    | _ => []
  Json.decodeValue Server.decode (Json.Value.sortKeys (.object (members ++ fields)))

def changed (s : Server) (fields : List (String × Json.Value)) : Answer :=
  match overwrite s fields with
  | .ok s => .ok s
  | .error (.shape m) => .error (.malformed m.message)
  | .error (.text _) => .error (.malformed "not JSON")

end Simulation
end ServerFleet
