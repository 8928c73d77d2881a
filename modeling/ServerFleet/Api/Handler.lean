import ServerFleet.Api.Groups
import ServerFleet.Api.Health
import ServerFleet.Api.Hosts
import ServerFleet.Api.Servers

/-!
# The interface

Which reply a request gets.  A question about the methods of a resource is always
answered.  Otherwise the path decides first, then the token, then the method.
-/

namespace ServerFleet
namespace Api

def dispatch (c : Controller) (ctx : Context) (resource : Resource) (method query : String)
    (r : Http.Request) : Controller × Reply :=
  match resource, method with
  | .health, "GET" => (c, .now (.json 200 (healthReport ctx.now [])))
  | .ready, "GET" =>
      (c, .now (.json 200 (healthReport ctx.now [("components", components c)])))
  | .live, "GET" => (c, .now (.empty 200))
  | .groups, "GET" => (listGroups c query).read c
  | .groups, "POST" => (createGroup c r).write c
  | .group name, "GET" => (getGroup c name).read c
  | .group name, "PUT" => (updateGroup c name r).write c
  | .group name, "DELETE" => (deleteGroup c name).write c
  | .groupServers name, "GET" => (listGroupServers c name).read c
  | .groupServer name number, "GET" => (getGroupServer c name number).read c
  | .groupServer name number, "DELETE" =>
      (stopGroupServer c name number).order c (serverOutcome 200)
  | .servers, "GET" => (listServers c query).read c
  | .servers, "POST" => (startServer r).order c (serverOutcome 201)
  | .server id, "GET" => (getServer c id).read c
  | .server id, "DELETE" => (stopServer id).order c (serverOutcome 200)
  | .serverState id, "PUT" => (updateState c ctx.toEnv id r).write c
  | .serverProperty id key, "PUT" => (updateProperty c ctx.toEnv id key r).write c
  | .hosts, "GET" => (listHosts c).read c
  | .hosts, "POST" => (attachHost ctx.hostId r).order c hostOutcome
  | .events, "GET" => (c, .stream)
  | _, _ => (c, .now (.empty 405))

def Reply.withoutBody : Reply → Reply
  | .now response => .now response.withoutBody
  | .later order finish => .later order fun o => (finish o).withoutBody
  | .stream => .now .eventStream

/-- The reply to a request by its path, its token and then its method; `HEAD` asks for what `GET` does. -/
def answer (token : Option String) (c : Controller) (ctx : Context) (r : Http.Request) :
    Controller × Reply :=
  let target := Http.Target.ofText r.target
  let method := if r.method = "HEAD" then "GET" else r.method
  match Resource.ofSegments? target.segments with
  | none => (c, .now (.empty 404))
  | some resource =>
      if resource.isOpen then dispatch c ctx resource method target.query r
      else
        match authorize token ctx.requestId r with
        | .ok () => dispatch c ctx resource method target.query r
        | .error problem => (c, .now problem.response)

/-- The reply to a request; one to `HEAD` has no body, whatever it says. -/
def handle (token : Option String) (c : Controller) (ctx : Context) (r : Http.Request) :
    Controller × Reply :=
  if r.method = "OPTIONS" then (c, .now (.empty 200))
  else
    let (c, reply) := answer token c ctx r
    (c, if r.method = "HEAD" then reply.withoutBody else reply)

end Api
end ServerFleet
