import ServerFleet.Control.Job
import ServerFleet.Scaling

/-!
# Reconciliation

A pass goes over all groups by name and has the servers started that each of them
lacks, one after the other and never beyond the cap of the group.  A start that
fails ends the turn of its group, but not the pass.

The pass itself only reads.  It says for which group the next start is, waits until
that start has ended, and then looks again at how many servers the group has.
-/

namespace ServerFleet

structure PassStats where
  processed : Nat
  failed : Nat
  started : Nat
deriving DecidableEq, Repr

/-- A pass that waits for a start in a group: the further starts wanted there, and the groups to come. -/
structure Pass where
  group : Group
  wanted : Nat
  remaining : List Group
  stats : PassStats

def Pass.order (p : Pass) : Order :=
  .start p.group.name .scaleUp

namespace Controller

/-- The starts that a group lacks by its policy, counted in numbers without a bound.  The count
is that of the search in words of 64 bits (`Group.searchSlots`) only as long as its products fit
into such words (`Group.FitsWords`). -/
def wantedIn (c : Controller) (g : Group) : Nat :=
  let available := (c.store.byGroup g.name).filter fun s => !s.state.isBusy
  g.demand (available.map Server.load)

def nextStart? (c : Controller) (g : Group) (wanted : Nat) (remaining : List Group)
    (stats : PassStats) : Option Pass :=
  if wanted = 0 ∨ g.maxOnline.toNat ≤ c.store.countInGroup g.name then none
  else some ⟨g, wanted - 1, remaining, stats⟩

def passGroups (c : Controller) (stats : PassStats) : List Group → Progress Pass PassStats
  | [] => .done stats
  | g :: rest =>
      match c.nextStart? g (c.wantedIn g) rest stats with
      | some pass => .waiting pass
      | none => c.passGroups { stats with processed := stats.processed + 1 } rest

def beginPass (c : Controller) : Except StoreError (Progress Pass PassStats) :=
  match c.store.database.loadGroups with
  | .error e => .error e
  | .ok groups => .ok (c.passGroups ⟨0, 0, 0⟩ groups)

def resumePass (c : Controller) (p : Pass) (result : ServerResult) : Progress Pass PassStats :=
  match result with
  | .error _ => c.passGroups { p.stats with failed := p.stats.failed + 1 } p.remaining
  | .ok _ =>
      let stats := { p.stats with started := p.stats.started + 1 }
      match c.nextStart? p.group p.wanted p.remaining stats with
      | some pass => .waiting pass
      | none => c.passGroups { stats with processed := stats.processed + 1 } p.remaining

end Controller
end ServerFleet
