import ServerFleet.Model.Group
import ServerFleet.Model.Load

/-!
# Scaling

How many servers a group lacks, from the loads of its available servers.  A policy
only ever asks for more servers, and the cap on the group is not its concern.
-/

namespace ServerFleet

/-!
# Player ratio

A server at or above the ratio is about to fill up and does not count towards the
minimum.
-/

def highLoads (ratio : Nat) (loads : List Load) : List Load :=
  loads.filter fun l => ratio ≤ l.percent

/-- How many servers are missing to a minimum of servers below the ratio. -/
def playerRatioDemand (g : Group) (loads : List Load) : Nat :=
  g.minOnline.toNat - (loads.length - (highLoads g.newInstanceRatio.toNat loads).length)

/-!
# Slot ratio

A share of all slots is to be free.  Every further server opens a fixed number of
free slots, so that `extra` servers suffice from some number on.
-/

def Sufficient (ratio perServer total free extra : Nat) : Prop :=
  ratio * (total + extra * perServer) ≤ 100 * (free + extra * perServer)

instance (ratio perServer total free extra : Nat) :
    Decidable (Sufficient ratio perServer total free extra) :=
  inferInstanceAs (Decidable (_ ≤ _))

def divUp (n d : Nat) : Nat :=
  (n + d - 1) / d

/-- The least number from `floor` to `cap` that suffices, or `cap` if none does. -/
def leastSufficient (ratio perServer total free floor cap : Nat) : Nat :=
  if Sufficient ratio perServer total free floor then floor
  else if (100 - ratio) * perServer = 0 then cap
  else min cap (divUp (ratio * total - 100 * free) ((100 - ratio) * perServer))

def slotRatioDemand (g : Group) (loads : List Load) : Nat :=
  let floor := g.minOnline.toNat - loads.length
  leastSufficient g.newInstanceRatio.toNat g.maxPlayers.toNat
    (Load.total Load.slots loads) (Load.total Load.free loads) floor (max g.maxOnline.toNat floor)

def Group.demand (g : Group) (loads : List Load) : Nat :=
  match g.policy with
  | .playerRatio => playerRatioDemand g loads
  | .slotRatio => slotRatioDemand g loads

end ServerFleet
