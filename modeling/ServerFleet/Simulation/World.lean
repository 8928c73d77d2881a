import ServerFleet.Control.Pass
import ServerFleet.Simulation.Agent

/-!
# Worlds

The state of a run of the controller with scripted agents over virtual time: the
controllers, the agents, the calls to them, and the tasks that are under way.

A restart puts a new controller over the same database.  Tasks of the controllers
before it go on with what those had in memory.
-/

namespace ServerFleet
namespace Simulation

/-- A moment at which something is due; `order` counts the timers in the order of their setting. -/
structure Timer where
  time : Nat
  order : Nat
deriving DecidableEq, Repr

def Timer.before (a b : Timer) : Bool :=
  a.time < b.time || (a.time == b.time && a.order < b.order)

inductive Stage where
  | cued (timer : Timer) (line : Line)
  | asked (timer : Timer)
  | answered (answer : Answer)

structure Exchange where
  call : AgentCall
  deadline : Timer
  stage : Stage

def Exchange.answer? (x : Exchange) : Option Answer :=
  match x.stage with
  | .answered a => some a
  | _ => none

def Exchange.timers (x : Exchange) : List Timer :=
  match x.stage with
  | .cued timer _ => [timer, x.deadline]
  | .asked timer => [timer, x.deadline]
  | .answered _ => []

structure Rhythm where
  period : Nat
  due : Nat
  stop : Nat
deriving DecidableEq, Repr

/-- What a task is about to do.  The passes of a worker have a rhythm and a pass made once has none. -/
inductive Work where
  | ordered (order : Order)
  | asking (job : Job) (exchanges : List Exchange)
  | scheduled (tick : Timer) (rhythm : Option Rhythm)
  | passing (pass : Pass) (start : Nat) (rhythm : Option Rhythm)

inductive Ending where
  | outcome (o : Outcome)
  | passed (result : Except StoreError PassStats)
  | stopped

/-- A task under way, and the controller it belongs to.  One in the foreground goes first when time moves on. -/
structure Task where
  number : Nat
  owner : Nat
  foreground : Bool
  work : Work

structure Listener where
  owner : Nat
  cursor : Feed.Cursor

/-- A run: the controllers one after the other, the agents, the tasks and the subscribers.  The tasks that
can go on at this instant stand in a queue by their numbers. -/
structure World where
  settings : ControlSettings
  clock : Time.Instant
  now : Nat
  database : Database
  controllers : Array Controller
  standIn : StandIn
  launchCues : List Cue
  terminateCues : List Cue
  reattachCues : List Cue
  calls : List AgentCall
  launched : List ServerId
  minted : Nat
  timers : Nat
  tasks : List Task
  ready : List Nat
  ended : List (Nat × Ending)
  numbered : Nat
  registered : List HostId
  listeners : Array Listener
  streams : Array Listener

namespace World

/-!
# Controllers
-/

def start (settings : ControlSettings) (clock : Time.Instant) (launchDelay : Nat) : World where
  settings := settings
  clock := clock
  now := 0
  database := .empty
  controllers := match Controller.assemble settings .empty with
    | .ok c => #[c]
    | .error _ => #[]
  standIn := .new launchDelay
  launchCues := []
  terminateCues := []
  reattachCues := []
  calls := []
  launched := []
  minted := 0
  timers := 0
  tasks := []
  ready := []
  ended := []
  numbered := 0
  registered := []
  listeners := #[]
  streams := #[]

def current (w : World) : Nat :=
  w.controllers.size - 1

def controller? (w : World) (owner : Nat) : Option Controller :=
  w.controllers[owner]?.map fun c => { c with store := { c.store with database := w.database } }

def keep (w : World) (owner : Nat) (c : Controller) : World :=
  { w with controllers := w.controllers.setIfInBounds owner c, database := c.store.database }

def restart (w : World) : Except StoreError World :=
  (Controller.assemble w.settings w.database).map fun c =>
    { w with controllers := w.controllers.push c }

def mintedId (n : Nat) : Id kind :=
  Id.ofNat (0x6d9c2f8e51a3b7046ed1000000000000 + n)

def env (w : World) : Env where
  now := w.clock
  serverId := mintedId w.minted

/-- Does a step of a controller; the identifier it may have used is not given out again. -/
def step (w : World) (owner : Nat) (f : Controller → Env → Controller × α) : Option (World × α) :=
  (w.controller? owner).map fun c =>
    let (c, a) := f c w.env
    ({ w with minted := w.minted + 1 }.keep owner c, a)

/-!
# Calls
-/

def setTimer (w : World) (delay : Nat) : World × Timer :=
  ({ w with timers := w.timers + 1 }, ⟨w.now + delay, w.timers⟩)

def takeCue (w : World) (call : AgentCall) : World × Option Cue :=
  match call with
  | .launch .. =>
      match w.launchCues with
      | [] => (w, none)
      | cue :: rest => ({ w with launchCues := rest }, some cue)
  | .terminate .. =>
      match w.terminateCues with
      | [] => (w, none)
      | cue :: rest => ({ w with terminateCues := rest }, some cue)
  | .reattach .. =>
      match w.reattachCues with
      | [] => (w, none)
      | cue :: rest => ({ w with reattachCues := rest }, some cue)

def ask (w : World) (call : AgentCall) : World × Stage :=
  let w := { w with standIn := w.standIn.count call }
  let delay := w.standIn.delay call
  if delay = 0 then (w, .answered (w.standIn.answer call))
  else
    let (w, timer) := w.setTimer delay
    (w, .asked timer)

def follow (w : World) (call : AgentCall) : Line → World × Stage
  | .fail error => (w, .answered (.error error))
  | .change fields => (w, .answered (changed call.server fields))
  | .pass => w.ask call

def record (w : World) (call : AgentCall) : World :=
  let w := { w with calls := w.calls ++ [call] }
  match call with
  | .launch _ _ server =>
      if w.launched.contains server.id then w else { w with launched := w.launched ++ [server.id] }
  | _ => w

def expire (w : World) (x : Exchange) : Exchange :=
  match x.stage with
  | .answered _ => x
  | _ =>
      if x.deadline.time ≤ w.now then
        { x with stage := .answered (.error (.timeout w.settings.agentTimeout)) }
      else x

def place (w : World) (limit : Nat) (call : AgentCall) : World × Exchange :=
  let w := w.record call
  let (w, cue) := w.takeCue call
  let (w, stage) : World × Stage := match cue with
    | none => w.ask call
    | some cue =>
        if cue.delay = 0 then w.follow call cue.line
        else
          let (w, timer) := w.setTimer cue.delay
          (w, .cued timer cue.line)
  let (w, deadline) := w.setTimer limit
  (w, w.expire ⟨call, deadline, stage⟩)

def placeAll (w : World) (limit : Nat) : List AgentCall → World × List Exchange
  | [] => (w, [])
  | call :: rest =>
      let (w, x) := w.place limit call
      let (w, more) := w.placeAll limit rest
      (w, x :: more)

def advanceExchange (w : World) (x : Exchange) : World × Exchange :=
  let (w, x) : World × Exchange := match x.stage with
    | .cued timer line =>
        if timer.time ≤ w.now then
          let (w, stage) := w.follow x.call line
          (w, { x with stage })
        else (w, x)
    | .asked timer =>
        if timer.time ≤ w.now then
          (w, { x with stage := .answered (w.standIn.answer x.call) })
        else (w, x)
    | .answered _ => (w, x)
  (w, w.expire x)

def advanceExchanges (w : World) : List Exchange → World × List Exchange
  | [] => (w, [])
  | x :: rest =>
      let (w, x) := w.advanceExchange x
      let (w, more) := w.advanceExchanges rest
      (w, x :: more)

def limit (w : World) : Nat :=
  w.settings.agentTimeout.nanos / 1000000

end World
end Simulation
end ServerFleet
