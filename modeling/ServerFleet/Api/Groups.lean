import ServerFleet.Api.Reply

/-!
# Groups over HTTP

Groups are kept under their names.  A group has to be valid before it is stored,
and keeps its name when it is overwritten.
-/

namespace ServerFleet
namespace Api

def groupMissing (name : String) : Http.Response :=
  (Problem.notFound "group_not_found" ("group not found: " ++ name)).response

def validated (g : Group) : Attempt Unit :=
  g.validate.mapError fun e => (Problem.badRequest "invalid_group" e.message).response

def withDatabase (c : Controller) (db : Database) : Controller :=
  { c with store := { c.store with database := db } }

def listGroups (c : Controller) (query : String) : Attempt Http.Response := do
  let filter ← typeFilter query
  let groups ← stored c.store.database.loadGroups
  let chosen := match filter with
    | some t => groups.filter fun g => g.serverType == t
    | none => groups
  return .json 200 (listJson Group.toJson chosen)

def createGroup (c : Controller) (r : Http.Request) : Attempt (Controller × Http.Response) := do
  let g ← decodeBody Group.decode r
  validated g
  match ← stored (c.store.database.findGroup g.name) with
  | some _ =>
      .error (Problem.conflict "group_exists" ("group " ++ g.name ++ " already exists")).response
  | none =>
      let db ← stored (c.store.database.saveGroup g)
      return (withDatabase c db, .json 201 g.toJson)

def getGroup (c : Controller) (raw : String) : Attempt Http.Response := do
  let name ← pathText raw
  match ← stored (c.store.database.findGroup name) with
  | some g => return .json 200 g.toJson
  | none => .error (groupMissing name)

def updateGroup (c : Controller) (raw : String) (r : Http.Request) :
    Attempt (Controller × Http.Response) := do
  let name ← pathText raw
  let g ← decodeBody Group.decode r
  if g.name ≠ name then
    .error (Problem.badRequest "name_mismatch"
      ("body names group " ++ g.name ++ " but path names " ++ name)).response
  else
    validated g
    match ← stored (c.store.database.findGroup name) with
    | none => .error (groupMissing name)
    | some _ =>
        let db ← stored (c.store.database.saveGroup g)
        return (withDatabase c db, .json 200 g.toJson)

def deleteGroup (c : Controller) (raw : String) : Attempt (Controller × Http.Response) := do
  let name ← pathText raw
  match ← stored (c.store.database.deleteGroup name) with
  | (true, db) => return (withDatabase c db, .empty 204)
  | (false, _) => .error (groupMissing name)

def listGroupServers (c : Controller) (raw : String) : Attempt Http.Response := do
  let name ← pathText raw
  return .json 200 (listJson Server.toJson (c.store.byGroup name))

def getGroupServer (c : Controller) (rawName rawNumber : String) : Attempt Http.Response := do
  let name ← pathText rawName
  let number ← pathNumber rawNumber
  match c.store.byNumber? name number with
  | some s => return .json 200 s.toJson
  | none =>
      .error (Problem.notFound "server_not_found"
        ("server " ++ name ++ "-" ++ Text.natText number ++ " not found")).response

def stopGroupServer (c : Controller) (rawName rawNumber : String) : Attempt Order := do
  let name ← pathText rawName
  let number ← pathNumber rawNumber
  match c.stopByNumber name number .api with
  | .ok order => return order
  | .error e => .error (Problem.ofControl e).response

end Api
end ServerFleet
