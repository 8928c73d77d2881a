import ServerFleet.Control.Stop

/-!
# Reattachment

A host that registers is asked about every server it is recorded to have.  Servers
that it still knows are refreshed from its answer.  The others are purged, each
with an event.  Launches in flight are left alone.
-/

namespace ServerFleet

/-- What became of the servers of a host: those that it confirmed, and those that are gone.  Those whose
record could not be written are only told to the log. -/
structure Report where
  reattached : List ServerId
  purged : List ServerId
  failed : List (ServerId × StoreError)

def Report.empty : Report :=
  ⟨[], [], []⟩

structure Sweep where
  host : Host
  owned : List Server
deriving DecidableEq

def Sweep.calls (s : Sweep) : List AgentCall :=
  s.owned.map fun server => .reattach s.host server

namespace Controller

def beginAttach (c : Controller) (h : Host) : Controller × Progress Sweep Report :=
  let c := { c with hosts := putHost h c.hosts }
  let owned := (c.store.byHost h.id).filter fun s => !c.store.isLaunching s.id
  if owned.isEmpty then (c, .done .empty) else (c, .waiting ⟨h, owned⟩)

/-- Removes the record of a server that its host does not know; whether there was one to remove. -/
def purge (c : Controller) (env : Env) (id : ServerId) : Controller × Except StoreError Bool :=
  match c.store.remove id with
  | .ok (some (removed, store)) =>
      let c := { c with store }.releaseNumber removed
      (c.publish env (.stop removed .hostLost env.now), .ok true)
  | .ok none => (c, .ok false)
  | .error e => (c, .error e)

def settle (c : Controller) (env : Env) (report : Report) (server : Server) (reply : Reply) :
    Controller × Report :=
  match reply.merged server with
  | .ok confirmed =>
      match c.store.replace confirmed with
      | .ok (some store) =>
          ({ c with store }, { report with reattached := report.reattached ++ [server.id] })
      | .ok none => (c, report)
      | .error e => (c, { report with failed := report.failed ++ [(server.id, e)] })
  | .error _ =>
      match c.purge env server.id with
      | (c, .ok true) => (c, { report with purged := report.purged ++ [server.id] })
      | (c, .ok false) => (c, report)
      | (c, .error e) => (c, { report with failed := report.failed ++ [(server.id, e)] })

def settleAll (c : Controller) (env : Env) (report : Report) :
    List (Server × Reply) → Controller × Report
  | [] => (c, report)
  | (server, reply) :: rest =>
      let (c, report) := c.settle env report server reply
      c.settleAll env report rest

def finishAttach (c : Controller) (env : Env) (s : Sweep) (replies : List Reply) :
    Controller × Report :=
  c.settleAll env .empty (s.owned.zip replies)

end Controller
end ServerFleet
