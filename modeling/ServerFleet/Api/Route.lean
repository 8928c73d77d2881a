import ServerFleet.Http.Target

/-!
# Routes

The resources of the interface and the paths at which they are found.
-/

namespace ServerFleet
namespace Api

inductive Resource where
  | health
  | ready
  | live
  | groups
  | group (name : String)
  | groupServers (name : String)
  | groupServer (name number : String)
  | servers
  | server (id : String)
  | serverState (id : String)
  | serverProperty (id key : String)
  | hosts
  | events
deriving DecidableEq, Repr

namespace Resource

/-- The resource at a path.  A part that is left open must not be empty where the path ends with it. -/
def ofSegments? : List String → Option Resource
  | ["healthz"] => some .health
  | ["readyz"] => some .ready
  | ["livez"] => some .live
  | ["v1", "groups"] => some .groups
  | ["v1", "groups", name] => if name.isEmpty then none else some (.group name)
  | ["v1", "groups", name, "servers"] => some (.groupServers name)
  | ["v1", "groups", name, "servers", number] =>
      if number.isEmpty then none else some (.groupServer name number)
  | ["v1", "servers"] => some .servers
  | ["v1", "servers", id] => if id.isEmpty then none else some (.server id)
  | ["v1", "servers", id, "state"] => some (.serverState id)
  | ["v1", "servers", id, "properties", key] =>
      if key.isEmpty then none else some (.serverProperty id key)
  | ["v1", "hosts"] => some .hosts
  | ["v1", "events"] => some .events
  | _ => none

def isOpen : Resource → Bool
  | .health => true
  | .ready => true
  | .live => true
  | _ => false

end Resource
end Api
end ServerFleet
