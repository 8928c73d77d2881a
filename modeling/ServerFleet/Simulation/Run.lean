import ServerFleet.Simulation.World

/-!
# Runs over virtual time

How the tasks of a world go on.  Time stands still while a task can go on, and then
moves straight to the next timer.

The tasks that can go on at one instant do so in the order of their queue, each
until it has to wait.  Timers put tasks into the queue in the order in which they
were set.  A start that a pass has ordered goes to the end of the queue, and so does
the pass when that start has ended.
-/

namespace ServerFleet
namespace Simulation

namespace Task

def waitsFor (t : Task) (number : Nat) : Bool :=
  match t.work with
  | .passing _ start _ => start == number
  | _ => false

def firstTimer : List Timer → Option Timer
  | [] => none
  | t :: rest =>
      match firstTimer rest with
      | none => some t
      | some u => if u.before t then some u else some t

def timer? (t : Task) : Option Timer :=
  match t.work with
  | .asking _ exchanges => firstTimer (exchanges.flatMap Exchange.timers)
  | .scheduled tick _ => some tick
  | .ordered _ => none
  | .passing .. => none

end Task

namespace Rhythm

/-- How late a tick may be before the next ones are put off. -/
def tolerance : Nat := 5

def after (r : Rhythm) (now : Nat) : Rhythm :=
  { r with due := (if r.due + tolerance < now then now else r.due) + r.period }

end Rhythm

namespace World

/-!
# Tasks
-/

def add (w : World) (owner : Nat) (foreground : Bool) (work : Work) : World × Nat :=
  let number := w.numbered
  ({ w with
      numbered := number + 1
      tasks := w.tasks ++ [⟨number, owner, foreground, work⟩] }, number)

def spawn (w : World) (owner : Nat) (foreground : Bool) (work : Work) : World × Nat :=
  let (w, number) := w.add owner foreground work
  ({ w with ready := w.ready ++ [number] }, number)

def task? (w : World) (number : Nat) : Option Task :=
  w.tasks.find? fun t => t.number == number

def ending? (w : World) (number : Nat) : Option Ending :=
  (w.ended.find? fun e => e.1 == number).map Prod.snd

def assign (w : World) (t : Task) (work : Work) : World :=
  { w with tasks := w.tasks.map fun x => if x.number == t.number then { t with work } else x }

def finish (w : World) (t : Task) (ending : Ending) : World :=
  { w with
      tasks := w.tasks.filter fun x => x.number != t.number
      ready := w.ready ++ (w.tasks.filter fun x => x.waitsFor t.number).map Task.number
      ended := w.ended ++ [(t.number, ending)] }

/-!
# Jobs
-/

/-- How often a job asks agents at most: a start asks for the launch, and perhaps for a termination. -/
def askLimit : Nat := 2

/-- Goes on with a job until it has to wait; `fuel` bounds how often it may still ask. -/
def proceed (w : World) (t : Task) : Nat → Progress Job Outcome → World
  | _, .done outcome => w.finish t (.outcome outcome)
  | 0, .waiting job => w.assign t (.asking job [])
  | fuel + 1, .waiting job =>
      let (w, exchanges) := w.placeAll w.limit job.calls
      match exchanges.mapM Exchange.answer? with
      | none => w.assign t (.asking job exchanges)
      | some answers =>
          match w.step t.owner fun c env =>
              c.resume env job (answers.map fun answer => ⟨answer, env.now⟩) with
          | none => w
          | some (w, progress) => w.proceed t fuel progress

def runOrder (w : World) (t : Task) (order : Order) : World :=
  match w.step t.owner fun c env => c.begin env order with
  | none => w
  | some (w, progress) => w.proceed t askLimit progress

def runJob (w : World) (t : Task) (job : Job) (exchanges : List Exchange) : World :=
  let (w, exchanges) := w.advanceExchanges exchanges
  match exchanges.mapM Exchange.answer? with
  | none => w.assign t (.asking job exchanges)
  | some answers =>
      match w.step t.owner fun c env =>
              c.resume env job (answers.map fun answer => ⟨answer, env.now⟩) with
      | none => w
      | some (w, progress) => w.proceed t askLimit progress

/-!
# Passes
-/

/-- Ends a pass.  A worker rests until the next tick, unless it is to stop or that tick is over already. -/
def endPass (w : World) (t : Task) (rhythm : Option Rhythm)
    (result : Except StoreError PassStats) : World :=
  match rhythm with
  | none => w.finish t (.passed result)
  | some r =>
      if r.stop ≤ w.now then w.finish t .stopped
      else
        let (w, tick) := w.setTimer (r.due - w.now)
        let w := w.assign t (.scheduled tick rhythm)
        if r.due ≤ w.now then { w with ready := t.number :: w.ready } else w

def takePass (w : World) (t : Task) (rhythm : Option Rhythm) : Progress Pass PassStats → World
  | .done stats => w.endPass t rhythm (.ok stats)
  | .waiting pass =>
      let (w, start) := w.spawn t.owner false (.ordered pass.order)
      w.assign t (.passing pass start rhythm)

def runPass (w : World) (t : Task) (rhythm : Option Rhythm) : World :=
  match w.controller? t.owner with
  | none => w
  | some c =>
      match c.beginPass with
      | .error e => w.endPass t rhythm (.error e)
      | .ok progress => w.takePass t rhythm progress

def continuePass (w : World) (t : Task) (pass : Pass) (start : Nat) (rhythm : Option Rhythm) :
    World :=
  match w.controller? t.owner, w.ending? start with
  | some c, some (.outcome (.server result)) => w.takePass t rhythm (c.resumePass pass result)
  | _, _ => w

/-!
# An instant
-/

def run (w : World) (t : Task) : World :=
  match t.work with
  | .ordered order => w.runOrder t order
  | .asking job exchanges => w.runJob t job exchanges
  | .scheduled _ rhythm => w.runPass t (rhythm.map fun r => r.after w.now)
  | .passing pass start rhythm => w.continuePass t pass start rhythm

def stepLimit : Nat := 1000000

/-- Lets the tasks go on in the order of the queue; `fuel` bounds how often one does. -/
def settle (w : World) : Nat → World
  | 0 => w
  | fuel + 1 =>
      match w.ready with
      | [] => w
      | number :: rest =>
          let w := { w with ready := rest }
          match w.task? number with
          | some t => (w.run t).settle fuel
          | none => w.settle fuel

/-!
# Time
-/

def alarms (w : World) : List (Task × Timer) :=
  w.tasks.filterMap fun t => t.timer?.map fun timer => (t, timer)

def nextTime? (w : World) : Option Nat :=
  (Task.firstTimer (w.alarms.map Prod.snd)).map Timer.time

/-- Whether a task goes on before another one at the same instant: the foreground first, then by timers. -/
def goesFirst (a b : Task × Timer) : Bool :=
  if a.1.foreground == b.1.foreground then !b.2.before a.2 else a.1.foreground

def arrive (w : World) (time : Nat) : World :=
  let w := { w with now := max w.now time }
  let due := w.alarms.filter fun a => a.2.time ≤ w.now
  let woken := (due.mergeSort goesFirst).map fun a => a.1.number
  ({ w with ready := w.ready ++ woken }).settle stepLimit

def runUntil (w : World) (time : Nat) : Nat → World
  | 0 => w
  | fuel + 1 =>
      match w.nextTime? with
      | none => { w with now := max w.now time }
      | some next =>
          if next ≤ time then (w.arrive next).runUntil time fuel
          else { w with now := max w.now time }

def runTask (w : World) (number : Nat) : Nat → World
  | 0 => w
  | fuel + 1 =>
      match w.ending? number, w.nextTime? with
      | none, some next => (w.arrive next).runTask number fuel
      | _, _ => w

def timerLimit : Nat := 1000000

def elapse (w : World) (delay : Nat) : World :=
  w.runUntil (w.now + delay) timerLimit

def await (w : World) (number : Nat) : World × Option Ending :=
  let w := w.runTask number timerLimit
  (w, w.ending? number)

/-!
# Orders
-/

def begin (w : World) (order : Order) : World × Nat :=
  let (w, number) := w.spawn w.current false (.ordered order)
  (w.settle stepLimit, number)

def join (w : World) (number : Nat) : World × Option Outcome :=
  match w.await number with
  | (w, some (.outcome o)) => (w, some o)
  | (w, _) => (w, none)

def perform (w : World) (order : Order) : World × Option Outcome :=
  let (w, number) := w.begin order
  w.join number

def attend (w : World) (order : Order) : World × Option Outcome :=
  let (w, number) := w.spawn w.current true (.ordered order)
  (w.settle stepLimit).join number

def reconcile (w : World) : World × Option (Except StoreError PassStats) :=
  let (w, tick) := w.setTimer 0
  let (w, number) := w.spawn w.current true (.scheduled tick none)
  match (w.settle stepLimit).await number with
  | (w, some (.passed result)) => (w, some result)
  | (w, _) => (w, none)

/-- Lets a worker make passes for some milliseconds.  It then stops, after a pass that is under way. -/
def runWorker (w : World) (period duration : Nat) : World :=
  let stop := w.now + duration
  let (w, tick) := w.setTimer period
  let (w, number) := w.add w.current false (.scheduled tick (some ⟨period, tick.time, stop⟩))
  let w := w.runUntil stop timerLimit
  match w.task? number with
  | none => w
  | some t =>
      match t.work with
      | .scheduled .. => w.finish t .stopped
      | _ => w.runTask number timerLimit

end World
end Simulation
end ServerFleet
