import ServerFleet.Control.Basic

/-!
# Starting a server

A start takes a number and places a provisional record before it asks a host.  The
host's answer is either committed, with an event, or everything is rolled back.  A
server that was launched but could not be committed is terminated first.
-/

namespace ServerFleet

structure Launch where
  group : Group
  host : Host
  provisional : Server
  cause : Cause
deriving DecidableEq

structure Undo where
  host : Host
  provisional : Server
  confirmed : Server
  /-- The failed write, or nothing if the record was gone. -/
  failure : Option StoreError

inductive StartWork where
  | launching (launch : Launch)
  | undoing (undo : Undo)

def StartWork.call : StartWork → AgentCall
  | .launching l => .launch l.host l.group l.provisional
  | .undoing u => .terminate u.host u.confirmed

abbrev ServerResult := Except ControlError Server

namespace Controller

def provisional (c : Controller) (env : Env) (id : ServerId) (g : Group) (host : Host)
    (number : Nat) : Server where
  id := id
  group := g.name
  serverType := g.serverType
  number := UInt32.ofNat number
  hostId := host.id
  address := host.address
  port := g.portOf (UInt32.ofNat number)
  memoryMin := g.memoryMin
  memoryMax := g.memoryMax
  maxPlayers := g.maxPlayers
  playerCount := 0
  properties := g.properties.insert secretProperty c.settings.forwardingSecret
  state := .preparing
  createdAt := env.now
  updatedAt := env.now

def place (c : Controller) (env : Env) (g : Group) (host : Host) (cause : Cause) :
    Controller × Progress StartWork ServerResult :=
  let (number, numbers) := c.numbers.allocate g.name
  let server := c.provisional env env.serverId g host number
  let store := c.store.beginLaunch server.id
  match store.save server with
  | .error e =>
      let numbers := (numbers.release g.name number).2
      ({ c with numbers, store := store.endLaunch server.id }, .done (.error (.storage e)))
  | .ok store =>
      ({ c with numbers, store }, .waiting (.launching ⟨g, host, server, cause⟩))

/-- Begins a start.  With every number of the group held the search for one would not end.  The start
comes to nothing then, with an error whose text, `no number is free`, is chosen here and seen by no host. -/
def beginStart (c : Controller) (env : Env) (group : String) (cause : Cause) :
    Controller × Progress StartWork ServerResult :=
  match c.store.database.findGroup group with
  | .error e => (c, .done (.error (.storage e)))
  | .ok none => (c, .done (.error (.groupNotFound group)))
  | .ok (some g) =>
      match c.placement? with
      | none => (c, .done (.error .noHost))
      | some host =>
          match c.numbers.firstFree? g.name with
          | none => (c, .done (.error (.task "no number is free")))
          | some _ => c.place env g host cause

/-- Takes a provisional record back, with its number; a refused deletion leaves both. -/
def rollBack (c : Controller) (provisional : Server) : Controller :=
  match c.store.remove provisional.id with
  | .ok (some (_, store)) => { c with store }.releaseNumber provisional
  | .ok none => c
  | .error _ => c

def endLaunch (c : Controller) (id : ServerId) : Controller :=
  { c with store := c.store.endLaunch id }

/-- Commits a confirmed server, or sets out to terminate it. -/
def commit (c : Controller) (env : Env) (l : Launch) (confirmed : Server) :
    Controller × Progress StartWork ServerResult :=
  match c.store.replace confirmed with
  | .ok (some store) =>
      let c := { c with store }.publish env (.start confirmed l.cause env.now)
      (c.endLaunch l.provisional.id, .done (.ok confirmed))
  | .ok none => (c, .waiting (.undoing ⟨l.host, l.provisional, confirmed, none⟩))
  | .error e => (c, .waiting (.undoing ⟨l.host, l.provisional, confirmed, some e⟩))

def resumeStart (c : Controller) (env : Env) (work : StartWork) (answer : Answer) :
    Controller × Progress StartWork ServerResult :=
  match work with
  | .launching l =>
      match answer.bind fun theirs => l.provisional.merge theirs env.now with
      | .ok confirmed => c.commit env l confirmed
      | .error e =>
          ((c.rollBack l.provisional).endLaunch l.provisional.id, .done (.error (.agent e)))
  | .undoing u =>
      match u.failure with
      | none =>
          (c.endLaunch u.provisional.id, .done (.error (.superseded u.confirmed.id)))
      | some e =>
          ((c.rollBack u.provisional).endLaunch u.provisional.id,
            .done (.error (.storage e)))

end Controller
end ServerFleet
