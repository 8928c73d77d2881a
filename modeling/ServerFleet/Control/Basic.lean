import ServerFleet.Control.Error
import ServerFleet.Event.Feed
import ServerFleet.Numbers
import ServerFleet.Store.Basic

/-!
# The controller

What the controller of a fleet keeps: the servers, the numbers they hold, the
hosts in the order of their first registration, and the feed of events.  After a
crash all of it is rebuilt from the database, but for the hosts and the feed.

Work that has to wait for hosts is done in steps.  Between two steps nothing of it
is hidden: what it still has to do stands in a value of its own.
-/

namespace ServerFleet

structure ControlSettings where
  agentTimeout : Time.Span
  forwardingSecret : String
deriving DecidableEq, Repr

def secretProperty : String := "forwarding-secret"

structure Controller where
  settings : ControlSettings
  store : Store
  numbers : Numbers
  hosts : List Host
  feed : Feed

/-- What a step takes from outside: the time, and an unused identifier for a new server. -/
structure Env where
  now : Time.Instant
  serverId : ServerId

inductive Progress (ω α : Type) where
  | done (result : α)
  | waiting (work : ω)

namespace Controller

/-- The controller over the records of a database: every stored server holds its number. -/
def assemble (settings : ControlSettings) (db : Database) : Except StoreError Controller :=
  match Store.load db with
  | .error e => .error e
  | .ok store =>
      let numbers := store.all.foldl (fun n s => (n.reserve s.group s.number.toNat).2) .empty
      .ok { settings, store, numbers, hosts := [], feed := .empty }

def publish (c : Controller) (env : Env) (event : FleetEvent) : Controller :=
  { c with feed := c.feed.publish eventTopic event env.now }

def releaseNumber (c : Controller) (s : Server) : Controller :=
  { c with numbers := (c.numbers.release s.group s.number.toNat).2 }

/-!
# Hosts
-/

def host? (c : Controller) (id : HostId) : Option Host :=
  c.hosts.find? fun h => h.id = id

/-- The first of some hosts that has the fewest servers. -/
def leastLoaded (count : HostId → Nat) : List Host → Option Host
  | [] => none
  | h :: rest =>
      match leastLoaded count rest with
      | none => some h
      | some best => if count h.id ≤ count best.id then some h else some best

def placement? (c : Controller) : Option Host :=
  leastLoaded c.store.countOnHost c.hosts

/-- Puts a host in the place of the one with its identifier, or at the end. -/
def putHost (h : Host) (hosts : List Host) : List Host :=
  if hosts.any fun x => x.id = h.id then hosts.map fun x => if x.id = h.id then h else x
  else hosts ++ [h]

end Controller
end ServerFleet
