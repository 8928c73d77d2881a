import ServerFleet.Api.Reply

/-!
# Servers over HTTP
-/

namespace ServerFleet
namespace Api

def listServers (c : Controller) (query : String) : Attempt Http.Response := do
  let filter ← typeFilter query
  let servers := match filter with
    | some t => c.store.byType t
    | none => c.store.all
  return .json 200 (listJson Server.toJson servers)

def startServer (r : Http.Request) : Attempt Order := do
  let body ← decodeBody StartBody.decode r
  return .start body.group body.cause

def getServer (c : Controller) (raw : String) : Attempt Http.Response := do
  let text ← pathText raw
  let id ← serverIdOf text
  match c.store.get? id with
  | some s => return .json 200 s.toJson
  | none =>
      .error (Problem.notFound "server_not_found" ("server not found: " ++ id.text)).response

def stopServer (raw : String) : Attempt Order := do
  let text ← pathText raw
  let id ← serverIdOf text
  return .stop id .api

def overridden (changed : Controller × ServerResult) : Controller × Http.Response :=
  (changed.1, serverOutcome 200 (.server changed.2))

def updateState (c : Controller) (env : Env) (raw : String) (r : Http.Request) :
    Attempt (Controller × Http.Response) := do
  let text ← pathText raw
  let state ← decodeBody decodeState r
  let id ← serverIdOf text
  if Text.isBlankText state then
    .error (Problem.badRequest "invalid_state" "state cannot be empty").response
  else return overridden (c.setState env id (.ofText state))

def updateProperty (c : Controller) (env : Env) (raw rawKey : String) (r : Http.Request) :
    Attempt (Controller × Http.Response) := do
  let text ← pathText raw
  let key ← pathText rawKey
  let value ← decodeBody decodeValue r
  let id ← serverIdOf text
  return overridden (c.setProperty env id key value)

end Api
end ServerFleet
