import Mathlib.Logic.Function.Basic
import ServerFleet.Control.Pass
import ServerFleet.Proofs.Fleet.Answers

/-!
# A fleet over time

Orders and passes are under way side by side.  Each goes on when it is its turn, one
step at a time; in between, records are overridden, the groups change, the database
refuses other statements, or the controller comes up anew over what the database
holds.  A run is a sequence of such moves in any order.  A move that is not possible
leaves the fleet as it is.
-/

namespace ServerFleet
namespace Fleet

inductive Stage where
  | ordered
  | asking (job : Job)
  | ended (outcome : Outcome)

structure Task where
  order : Order
  stage : Stage

/-- How far a pass has come: it waits for its turn, or for the start with a number, or is over. -/
inductive PassStage where
  | ordered
  | waiting (pass : Pass) (start : Nat)
  | ended (result : Except StoreError PassStats)

inductive Move where
  | order (order : Order)
  | stopNumber (group : String) (number : Nat) (cause : Cause)
  | orderPass
  | go (task : Nat) (env : Env) (replies : List Reply)
  | goPass (pass : Nat)
  | setState (env : Env) (id : ServerId) (state : ServerState)
  | setProperty (env : Env) (id : ServerId) (key value : String)
  | weather (groups : List GroupRow) (hasGroups : Bool) (refusal : Statement → Option String)
  | restart (settings : ControlSettings)

end Fleet

/-- The controller, the orders and passes under way or over, and the identities of all servers that were
ever placed. -/
structure Fleet where
  controller : Controller
  placed : List Identity
  tasks : Nat → Option Fleet.Task
  passes : Nat → Option Fleet.PassStage
  next : Nat

def Progress.stage : Progress Job Outcome → Fleet.Stage
  | .waiting job => .asking job
  | .done outcome => .ended outcome

namespace Fleet

def fresh (settings : ControlSettings) : Fleet where
  controller := ⟨settings, ⟨.empty, [], []⟩, .empty, [], .empty⟩
  placed := []
  tasks := fun _ => none
  passes := fun _ => none
  next := 0

def books (w : Fleet) : Books :=
  w.controller.books w.placed

/-!
# Moves
-/

def spawn (w : Fleet) (order : Order) : Fleet :=
  { w with
    tasks := Function.update w.tasks w.next (some ⟨order, .ordered⟩)
    next := w.next + 1 }

def advance (w : Fleet) (t : Nat) (order : Order) (step : Controller × Progress Job Outcome) : Fleet :=
  { w with
    controller := step.1
    placed := step.2.placed ++ w.placed
    tasks := Function.update w.tasks t (some ⟨order, step.2.stage⟩) }

def go (w : Fleet) (t : Nat) (env : Env) (replies : List Reply) : Fleet :=
  match w.tasks t with
  | none => w
  | some ⟨_, .ended _⟩ => w
  | some ⟨order, .ordered⟩ =>
      if env.serverId ∈ w.placed.map Identity.id then w
      else w.advance t order (w.controller.begin env order)
  | some ⟨order, .asking job⟩ =>
      if replies.length = job.calls.length then w.advance t order (w.controller.resume env job replies)
      else w

def advancePass (w : Fleet) (p : Nat) : Progress Pass PassStats → Fleet
  | .done stats => { w with passes := Function.update w.passes p (some (.ended (.ok stats))) }
  | .waiting pass =>
      { w.spawn pass.order with
        passes := Function.update w.passes p (some (.waiting pass w.next)) }

def goPass (w : Fleet) (p : Nat) : Fleet :=
  match w.passes p with
  | none => w
  | some (.ended _) => w
  | some .ordered =>
      match w.controller.beginPass with
      | .error e => { w with passes := Function.update w.passes p (some (.ended (.error e))) }
      | .ok progress => w.advancePass p progress
  | some (.waiting pass start) =>
      match w.tasks start with
      | some ⟨_, .ended (.server result)⟩ => w.advancePass p (w.controller.resumePass pass result)
      | _ => w

def weather (w : Fleet) (groups : List GroupRow) (hasGroups : Bool)
    (refusal : Statement → Option String) : Fleet :=
  let database := { w.controller.store.database with groups, hasGroups, refusal }
  { w with controller.store.database := database }

/-- Brings the controller up anew over the database; what was under way is lost. -/
def restart (w : Fleet) (settings : ControlSettings) : Fleet :=
  match Controller.assemble settings w.controller.store.database with
  | .error _ => w
  | .ok controller =>
      { w with controller, tasks := fun _ => none, passes := fun _ => none }

def step (w : Fleet) : Move → Fleet
  | .order order => w.spawn order
  | .stopNumber group number cause =>
      match w.controller.stopByNumber group number cause with
      | .error _ => w
      | .ok order => w.spawn order
  | .orderPass => { w with passes := Function.update w.passes w.next (some .ordered), next := w.next + 1 }
  | .go t env replies => w.go t env replies
  | .goPass p => w.goPass p
  | .setState env id state => { w with controller := (w.controller.setState env id state).1 }
  | .setProperty env id key value =>
      { w with controller := (w.controller.setProperty env id key value).1 }
  | .weather groups hasGroups refusal => w.weather groups hasGroups refusal
  | .restart settings => w.restart settings

def run (settings : ControlSettings) (moves : List Move) : Fleet :=
  moves.foldl step (fresh settings)

end Fleet
end ServerFleet
