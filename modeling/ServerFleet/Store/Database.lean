import ServerFleet.Json.Writer
import ServerFleet.Model.Group
import ServerFleet.Model.Server

/-!
# The database

Two durable tables, of servers and of groups.  A row keeps its record as JSON text
beside the columns by which it is found.  Servers are keyed by their identifier,
and no two of them may share group and number.  A statement that fails leaves its
table as it was.
-/

namespace ServerFleet

inductive StoreError where
  | numberTaken
  | refused (reason : String)
  | missingTable (name : String)
  | noRows
  | undecodable (error : Json.Error)

namespace StoreError

def isEncoding : StoreError → Bool
  | .undecodable _ => true
  | _ => false

def message : StoreError → String
  | .numberTaken =>
      "SQLite error: UNIQUE constraint failed: servers.group_name, servers.numeric_id"
  | .refused reason => "SQLite error: " ++ reason
  | .missingTable name => "SQLite error: no such table: " ++ name
  | .noRows => "SQLite error: Query returned no rows"
  | .undecodable (.shape m) => "serialization error: " ++ m.message
  | .undecodable (.text _) => "serialization error: malformed text"

end StoreError

structure ServerRow where
  key : String
  group : String
  number : Int
  body : String
deriving DecidableEq, Repr

def ServerRow.ofServer (s : Server) : ServerRow where
  key := s.id.text
  group := s.group
  number := s.number.toNat
  body := s.toJson.text

structure GroupRow where
  key : String
  body : String
deriving DecidableEq, Repr

def GroupRow.ofGroup (g : Group) : GroupRow where
  key := g.name
  body := g.toJson.text

inductive Statement where
  | saveServer (key : String)
  | deleteServer (key : String)
  | saveGroup (key : String)
  | deleteGroup (key : String)
deriving DecidableEq, Repr

/-- Two tables, whether each of them is there, and which statements the database refuses. -/
structure Database where
  servers : List ServerRow
  groups : List GroupRow
  hasServers : Bool
  hasGroups : Bool
  refusal : Statement → Option String

namespace Database

def empty : Database where
  servers := []
  groups := []
  hasServers := true
  hasGroups := true
  refusal := fun _ => none

def permit (db : Database) (s : Statement) (next : Except StoreError α) : Except StoreError α :=
  match db.refusal s with
  | none => next
  | some reason => .error (.refused reason)

def decodeBodies (decode : Json.Decoder α) : List String → Except StoreError (List α)
  | [] => .ok []
  | body :: rest =>
      match Json.decodeText decode body with
      | .error e => .error (.undecodable e)
      | .ok a => (decodeBodies decode rest).map (a :: ·)

/-!
# Servers
-/

def rowLe (a b : ServerRow) : Bool :=
  a.group < b.group || (a.group == b.group && a.number ≤ b.number)

def sortedServers (db : Database) : List ServerRow :=
  db.servers.mergeSort rowLe

def loadServers (db : Database) : Except StoreError (List Server) :=
  if db.hasServers then decodeBodies Server.decode (db.sortedServers.map ServerRow.body)
  else .error (.missingTable "servers")

/-- Whether a row would share its group and number with a row under another key. -/
def clashes (db : Database) (row : ServerRow) : Bool :=
  db.servers.any fun r => r.key != row.key && r.group == row.group && r.number == row.number

def putServer (row : ServerRow) (rows : List ServerRow) : List ServerRow :=
  if rows.any fun r => r.key == row.key then
    rows.map fun r => if r.key == row.key then row else r
  else rows ++ [row]

def saveServer (db : Database) (s : Server) : Except StoreError Database :=
  let row := ServerRow.ofServer s
  if !db.hasServers then .error (.missingTable "servers")
  else
    db.permit (.saveServer row.key) <|
      if db.clashes row then .error .numberTaken
      else .ok { db with servers := putServer row db.servers }

def deleteServer (db : Database) (id : ServerId) : Except StoreError Database :=
  if !db.hasServers then .error (.missingTable "servers")
  else if db.servers.any fun r => r.key == id.text then
    db.permit (.deleteServer id.text) <|
      .ok { db with servers := db.servers.filter fun r => r.key != id.text }
  else .ok db

/-!
# Groups
-/

def sortedGroups (db : Database) : List GroupRow :=
  db.groups.mergeSort fun a b => a.key ≤ b.key

def loadGroups (db : Database) : Except StoreError (List Group) :=
  if db.hasGroups then decodeBodies Group.decode (db.sortedGroups.map GroupRow.body)
  else .error (.missingTable "groups")

def findGroup (db : Database) (name : String) : Except StoreError (Option Group) :=
  if !db.hasGroups then .error (.missingTable "groups")
  else
    match db.groups.find? fun r => r.key == name with
    | none => .ok none
    | some row =>
        match Json.decodeText Group.decode row.body with
        | .error e => .error (.undecodable e)
        | .ok g => .ok (some g)

def putGroup (row : GroupRow) (rows : List GroupRow) : List GroupRow :=
  if rows.any fun r => r.key == row.key then
    rows.map fun r => if r.key == row.key then row else r
  else rows ++ [row]

def saveGroup (db : Database) (g : Group) : Except StoreError Database :=
  if !db.hasGroups then .error (.missingTable "groups")
  else
    db.permit (.saveGroup g.name) <|
      .ok { db with groups := putGroup (GroupRow.ofGroup g) db.groups }

/-- Deletes the group with a name; `false` if it is not there. -/
def deleteGroup (db : Database) (name : String) : Except StoreError (Bool × Database) :=
  if !db.hasGroups then .error (.missingTable "groups")
  else if db.groups.any fun r => r.key == name then
    db.permit (.deleteGroup name) <|
      .ok (true, { db with groups := db.groups.filter fun r => r.key != name })
  else .ok (false, db)

end Database
end ServerFleet
