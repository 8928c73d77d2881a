import ServerFleet.Control.Sweep
import ServerFleet.Control.Update

/-!
# Jobs

Starts, stops and registrations in one type.  A job is begun by an order, asks
agents some questions at a time, and goes on when all of them are answered.
-/

namespace ServerFleet

inductive Order where
  | start (group : String) (cause : Cause)
  | stop (id : ServerId) (cause : Cause)
  | attach (host : Host)

inductive Job where
  | start (work : StartWork)
  | stop (work : Stopping)
  | attach (work : Sweep)

inductive Outcome where
  | server (result : ServerResult)
  | attached (host : Host) (report : Report)

def Job.calls : Job → List AgentCall
  | .start work => [work.call]
  | .stop work => [work.call]
  | .attach work => work.calls

def Progress.lift (job : ω → Job) (outcome : α → Outcome) : Progress ω α → Progress Job Outcome
  | .done a => .done (outcome a)
  | .waiting w => .waiting (job w)

namespace Controller

def begin (c : Controller) (env : Env) : Order → Controller × Progress Job Outcome
  | .start group cause =>
      let (c, p) := c.beginStart env group cause
      (c, p.lift .start .server)
  | .stop id cause => (c, (c.beginStop id cause).lift .stop .server)
  | .attach host =>
      let (c, p) := c.beginAttach host
      (c, p.lift .attach (.attached host))

/-- The order to stop the server that has a number in a group by now. -/
def stopByNumber (c : Controller) (group : String) (number : Nat) (cause : Cause) :
    Except ControlError Order :=
  (c.serverByNumber group number).map fun s => .stop s.id cause

theorem stopByNumber_eq_ok_iff {c : Controller} {group : String} {number : Nat} {cause : Cause}
    {order : Order} :
    c.stopByNumber group number cause = .ok order ↔
      ∃ s, c.serverByNumber group number = .ok s ∧ .stop s.id cause = order := by
  rw [stopByNumber]
  cases c.serverByNumber group number with
  | error e =>
      simp [Except.map]
  | ok s =>
      simp [Except.map]

/-- The answer to a single call; one that never came counts as unreachable. -/
def single : List Reply → Answer
  | reply :: _ => reply.answer
  | [] => .error (.unreachable "no answer")

def resume (c : Controller) (env : Env) (job : Job) (replies : List Reply) :
    Controller × Progress Job Outcome :=
  match job with
  | .start work =>
      let (c, p) := c.resumeStart env work (single replies)
      (c, p.lift .start .server)
  | .stop work =>
      let (c, result) := c.finishStop env work (single replies)
      (c, .done (.server result))
  | .attach work =>
      let (c, report) := c.finishAttach env work replies
      (c, .done (.attached work.host report))

end Controller
end ServerFleet
