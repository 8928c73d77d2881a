import ServerFleet.Api.Reply

/-!
# Health

Whether the service runs, and how its parts are.
-/

namespace ServerFleet
namespace Api

def serviceName : String := "fleet-controller"

def serviceVersion : String := "0.1.0"

def healthReport (now : Time.Instant) (more : List (String × Json.Value)) : Json.Value :=
  .object ([
    ("status", .string "ok"),
    ("service", .string serviceName),
    ("version", .string serviceVersion),
    ("timestamp", .string now.offsetText)] ++ more)

def component (status : String) (more : List (String × Json.Value)) : Json.Value :=
  .object (("status", .string status) :: more)

/-- The parts of the service: the database, and the hosts, without which nothing can start. -/
def components (c : Controller) : Json.Value :=
  let count := c.hosts.length
  let hosts := if 0 < count then "ok" else "degraded"
  .object [
    ("database", component "ok" []),
    ("hosts", component hosts [("message", .string (Text.natText count ++ " registered"))])]

end Api
end ServerFleet
