import ServerFleet.Model.Group
import ServerFleet.Model.Host
import ServerFleet.Model.Server
import ServerFleet.Time.Span

/-!
# Calls to agents

What the controller asks the agent of a host, and what comes back: the server's
record as the host sees it, or an error.
-/

namespace ServerFleet

inductive AgentCall where
  | launch (host : Host) (group : Group) (server : Server)
  | terminate (host : Host) (server : Server)
  | reattach (host : Host) (server : Server)
deriving DecidableEq

namespace AgentCall

def name : AgentCall → String
  | .launch .. => "launch"
  | .terminate .. => "terminate"
  | .reattach .. => "reattach"

def host : AgentCall → Host
  | .launch host _ _ => host
  | .terminate host _ => host
  | .reattach host _ => host

def server : AgentCall → Server
  | .launch _ _ server => server
  | .terminate _ server => server
  | .reattach _ server => server

end AgentCall

inductive AgentError where
  | transport (message : String)
  | rejected (status : Nat) (body : String)
  | timeout (limit : Time.Span)
  | malformed (message : String)
  | unreachable (message : String)

def AgentError.message : AgentError → String
  | .transport message => "transport error: " ++ message
  | .rejected status body =>
      "host rejected request with status " ++ Text.natText status ++ ": " ++ body
  | .timeout limit => "host did not answer within " ++ limit.text
  | .malformed message => "malformed response: " ++ message
  | .unreachable message => "host unreachable: " ++ message

abbrev Answer := Except AgentError Server

structure Reply where
  answer : Answer
  time : Time.Instant

/-- Takes a host's record of a server over, but for what the host has no say in. -/
def Server.merge (ours theirs : Server) (now : Time.Instant) : Answer :=
  if theirs.id ≠ ours.id then
    .error (.malformed ("host answered for " ++ theirs.id.text ++ " while asked about "
      ++ ours.id.text))
  else
    .ok { theirs with
      group := ours.group
      serverType := ours.serverType
      number := ours.number
      hostId := ours.hostId
      createdAt := ours.createdAt
      updatedAt := now }

def Reply.merged (r : Reply) (ours : Server) : Answer :=
  r.answer.bind fun theirs => ours.merge theirs r.time

end ServerFleet
