import ServerFleet.Agent.Call
import ServerFleet.Json.Writer
import ServerFleet.Text.Blank

/-!
# Agents over HTTP

A call to an agent is a request below the base address of its host, with the
records it is about in the body.  The agent answers with its own record of the
server.
-/

namespace ServerFleet

structure AgentRequest where
  method : String
  url : String
  contentType : String
  body : String
deriving DecidableEq, Repr

namespace AgentCall

def path : AgentCall → String
  | .launch .. => "/v1/servers"
  | .terminate _ server => "/v1/servers/" ++ server.id.text ++ "/terminate"
  | .reattach _ server => "/v1/servers/" ++ server.id.text ++ "/reattach"

def body : AgentCall → Json.Value
  | .launch _ group server => .object [("group", group.toJson), ("server", server.toJson)]
  | .terminate _ server => server.toJson
  | .reattach _ server => server.toJson

/-- The address of a call below the endpoint of a host; slashes at its end do not count. -/
def url (endpoint path : String) : String :=
  Text.dropBack '/' endpoint ++ path

def request (c : AgentCall) : AgentRequest where
  method := "POST"
  url := url c.host.endpoint c.path
  contentType := "application/json"
  body := c.body.text

def answerOf (status : Nat) (body : String) : Answer :=
  if 200 ≤ status ∧ status < 300 then
    match Json.decodeText Server.decode body with
    | .ok s => .ok s
    | .error (.shape m) => .error (.malformed m.message)
    | .error (.text _) => .error (.malformed "not JSON")
  else .error (.rejected status body)

def send (network : AgentRequest → Except String (Nat × String)) (c : AgentCall) : Answer :=
  match network c.request with
  | .error message => .error (.transport message)
  | .ok (status, body) => answerOf status body

end AgentCall
end ServerFleet
