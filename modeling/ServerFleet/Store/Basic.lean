import ServerFleet.Store.Database

/-!
# The server store

The live servers: an index in memory over the table of the database.  Every write
goes to the database first, so that a write that fails changes neither.  Besides,
the store remembers whose launch is still in flight.
-/

namespace ServerFleet

structure Store where
  database : Database
  index : List Server
  launching : List ServerId

namespace Store

/-- Puts a server in the place of the one with its identifier, or at the end. -/
def put (s : Server) (servers : List Server) : List Server :=
  if servers.any fun r => r.id = s.id then servers.map fun r => if r.id = s.id then s else r
  else servers ++ [s]

def load (db : Database) : Except StoreError Store :=
  match db.loadServers with
  | .error e => .error e
  | .ok servers =>
      .ok { database := db, index := servers.foldl (fun all s => put s all) [], launching := [] }

/-!
# Looking up
-/

def serverLe (a b : Server) : Bool :=
  a.group < b.group || (a.group == b.group && a.number ≤ b.number)

def select (st : Store) (p : Server → Bool) : List Server :=
  (st.index.filter p).mergeSort serverLe

def get? (st : Store) (id : ServerId) : Option Server :=
  st.index.find? fun s => s.id = id

def all (st : Store) : List Server :=
  st.select fun _ => true

def byGroup (st : Store) (group : String) : List Server :=
  st.select fun s => s.group == group

def byHost (st : Store) (host : HostId) : List Server :=
  st.select fun s => s.hostId = host

def byType (st : Store) (serverType : String) : List Server :=
  st.select fun s => s.serverType == serverType

def byNumber? (st : Store) (group : String) (number : Nat) : Option Server :=
  st.index.find? fun s => s.group == group && s.number.toNat == number

def countInGroup (st : Store) (group : String) : Nat :=
  (st.index.filter fun s => s.group == group).length

def countOnHost (st : Store) (host : HostId) : Nat :=
  (st.index.filter fun s => s.hostId = host).length

/-!
# Writing
-/

def save (st : Store) (s : Server) : Except StoreError Store :=
  match st.database.saveServer s with
  | .error e => .error e
  | .ok db => .ok { st with database := db, index := put s st.index }

/-- Stores a server if one with its identifier is there; `none` if not. -/
def replace (st : Store) (s : Server) : Except StoreError (Option Store) :=
  match st.get? s.id with
  | none => .ok none
  | some _ => (st.save s).map some

/-- Removes the server with an identifier and gives it back; `none` if it is not there. -/
def remove (st : Store) (id : ServerId) : Except StoreError (Option (Server × Store)) :=
  match st.get? id with
  | none => .ok none
  | some s =>
      match st.database.deleteServer id with
      | .error e => .error e
      | .ok db =>
          .ok (some (s, { st with database := db, index := st.index.filter fun r => r.id ≠ id }))

/-!
# Launches
-/

def beginLaunch (st : Store) (id : ServerId) : Store :=
  if st.launching.contains id then st else { st with launching := id :: st.launching }

def endLaunch (st : Store) (id : ServerId) : Store :=
  { st with launching := st.launching.filter fun x => x ≠ id }

def isLaunching (st : Store) (id : ServerId) : Bool :=
  st.launching.contains id

end Store
end ServerFleet
