import ServerFleet.Proofs.Fleet.Failures
import ServerFleet.Proofs.Fleet.Fixpoint

/-!
# Registered hosts

The list of hosts only changes when a host registers, and when the controller comes up
anew.  A host is in it once: when it registers again it takes the place that it had.
-/

namespace ServerFleet
namespace Controller

/-!
# Steps of the controller
-/

theorem hosts_purge (c : Controller) (env : Env) (id : ServerId) : (c.purge env id).1.hosts = c.hosts := by
  rw [purge]
  split
  next =>
    rfl
  next =>
    rfl
  next =>
    rfl

theorem hosts_settle (c : Controller) (env : Env) (report : Report) (s : Server) (reply : Reply) :
    (c.settle env report s reply).1.hosts = c.hosts := by
  have hpurge := hosts_purge c env s.id
  rw [settle]
  split
  next =>
    split
    next =>
      rfl
    next =>
      rfl
    next =>
      rfl
  next =>
    split
    next hstep =>
      rw [hstep] at hpurge
      exact hpurge
    next hstep =>
      rw [hstep] at hpurge
      exact hpurge
    next hstep =>
      rw [hstep] at hpurge
      exact hpurge

theorem hosts_settleAll (c : Controller) (env : Env) (report : Report) (pairs : List (Server × Reply)) :
    (c.settleAll env report pairs).1.hosts = c.hosts := by
  induction pairs generalizing c report with
  | nil =>
      rfl
  | cons p rest ih =>
      rw [settleAll, ih, hosts_settle]

theorem hosts_rollBack (c : Controller) (s : Server) : (c.rollBack s).hosts = c.hosts := by
  rw [rollBack]
  split
  next =>
    rfl
  next =>
    rfl
  next =>
    rfl

theorem hosts_resumeStart (c : Controller) (env : Env) (work : StartWork) (answer : Answer) :
    (c.resumeStart env work answer).1.hosts = c.hosts := by
  cases work with
  | launching l =>
      rw [resumeStart]
      split
      next m _ =>
        exact hosts_commit c env l m
      next =>
        exact hosts_rollBack c _
  | undoing u =>
      rw [resumeStart]
      split
      next =>
        rfl
      next =>
        exact hosts_rollBack c _

theorem hosts_finishStop (c : Controller) (env : Env) (k : Stopping) (answer : Answer) :
    (c.finishStop env k answer).1.hosts = c.hosts := by
  cases answer with
  | error e =>
      rfl
  | ok _ =>
      rw [finishStop]
      split
      next =>
        rfl
      next =>
        rfl
      next =>
        rfl

theorem hosts_resume (c : Controller) (env : Env) (job : Job) (replies : List Reply) :
    (c.resume env job replies).1.hosts = c.hosts := by
  cases job with
  | start work =>
      exact hosts_resumeStart c env work _
  | stop k =>
      exact hosts_finishStop c env k _
  | attach sweep =>
      exact hosts_settleAll c env _ _

theorem hosts_beginAttach (c : Controller) (host : Host) :
    (c.beginAttach host).1.hosts = putHost host c.hosts := by
  rw [beginAttach]
  simp only
  split
  next =>
    rfl
  next =>
    rfl

theorem hosts_update (c : Controller) (env : Env) (id : ServerId) (change : Server → Server) :
    (c.update env id change).1.hosts = c.hosts := by
  rw [update]
  split
  next =>
    rfl
  next =>
    simp only
    split
    next =>
      rfl
    next =>
      rfl
    next =>
      rfl

/-!
# The list
-/

theorem putHost_of_new {h : Host} {hosts : List Host} (hnew : ∀ other ∈ hosts, other.id ≠ h.id) :
    putHost h hosts = hosts ++ [h] := by
  rw [putHost, if_neg]
  simpa using hnew

theorem putHost_of_known {h old : Host} {before after : List Host}
    (hnodup : ((before ++ old :: after).map Host.id).Nodup) (hid : old.id = h.id) :
    putHost h (before ++ old :: after) = before ++ h :: after := by
  have hothers : ∀ other ∈ before ++ after, other.id ≠ h.id := by
    intro other hother hsame
    rw [List.map_append, List.map_cons, List.nodup_middle, List.nodup_cons, ← List.map_append] at hnodup
    exact hnodup.left (List.mem_map.mpr ⟨other, hother, hsame.trans hid.symm⟩)
  have hkept (others : List Host) (hsub : ∀ other ∈ others, other ∈ before ++ after) :
      others.map (fun x => if x.id = h.id then h else x) = others :=
    (List.map_congr_left fun other hother => if_neg (hothers other (hsub other hother))).trans
      (List.map_id others)
  rw [putHost, if_pos (by simp [hid]), List.map_append, List.map_cons, if_pos hid,
    hkept before fun other => List.mem_append_left _, hkept after fun other => List.mem_append_right _]

/-- The hosts when one may register: it comes last, unless it is there. -/
def enroll (ids : List HostId) : Option HostId → List HostId
  | none => ids
  | some id => if ids.contains id then ids else ids ++ [id]

theorem ids_putHost (h : Host) (hosts : List Host) :
    (putHost h hosts).map Host.id = enroll (hosts.map Host.id) (some h.id) := by
  by_cases hknown : h.id ∈ hosts.map Host.id
  · have hsame : ∀ x ∈ hosts, (if x.id = h.id then h else x).id = x.id := by
      intro x _
      split
      next hid =>
        exact hid.symm
      next =>
        rfl
    have hany : hosts.any (fun x => x.id = h.id) = true := by
      simpa using hknown
    rw [putHost, if_pos hany, List.map_map, enroll, if_pos (List.contains_iff_mem.mpr hknown)]
    exact List.map_congr_left hsame
  · rw [putHost_of_new fun other hother hid => hknown (List.mem_map.mpr ⟨other, hother, hid⟩), enroll,
      if_neg (mt List.contains_iff_mem.mp hknown), List.map_append]
    rfl

theorem nodup_enroll {ids : List HostId} (hnodup : ids.Nodup) (id? : Option HostId) :
    (enroll ids id?).Nodup := by
  cases id? with
  | none =>
      exact hnodup
  | some id =>
      rw [enroll]
      split
      next =>
        exact hnodup
      next hnew =>
        refine hnodup.append (List.nodup_singleton id) ?_
        simpa using hnew

theorem enroll_eraseDups (ids : List HostId) (id? : Option HostId) :
    enroll ids.eraseDups id? = (ids ++ id?.toList).eraseDups := by
  cases id? with
  | none =>
      rw [enroll, Option.toList_none, List.append_nil]
  | some id =>
      rw [List.eraseDups_append, enroll]
      by_cases hknown : id ∈ ids
      · simp [List.cons_removeAll, hknown]
      · simp [List.cons_removeAll, hknown, List.eraseDups_cons]

theorem nodup_putHost (h : Host) {hosts : List Host} (hnodup : (hosts.map Host.id).Nodup) :
    ((putHost h hosts).map Host.id).Nodup := by
  rw [ids_putHost]
  exact nodup_enroll hnodup (some h.id)

end Controller

def Order.registered? : Order → Option HostId
  | .attach host => some host.id
  | _ => none

namespace Fleet

theorem controller_advancePass (w : Fleet) (p : Nat) (progress : Progress Pass PassStats) :
    (w.advancePass p progress).controller = w.controller := by
  cases progress with
  | done stats =>
      rfl
  | waiting pass =>
      rfl

theorem controller_goPass (w : Fleet) (p : Nat) : (w.goPass p).controller = w.controller := by
  rw [Fleet.goPass]
  split
  next =>
    rfl
  next =>
    rfl
  next =>
    split
    next =>
      rfl
    next =>
      exact controller_advancePass w p _
  next =>
    split
    next =>
      exact controller_advancePass w p _
    next =>
      rfl

/-!
# First registrations
-/

def registers? (w : Fleet) : Move → Option HostId
  | .go t env _ =>
      match w.tasks t with
      | some ⟨order, .ordered⟩ =>
          if w.placed.any fun a => a.id = env.serverId then none else order.registered?
      | _ => none
  | _ => none

def registrations (w : Fleet) : List Move → List HostId
  | [] => []
  | move :: rest => (w.registers? move).toList ++ (w.step move).registrations rest

theorem registrations_append (w : Fleet) (moves more : List Move) :
    w.registrations (moves ++ more) =
      w.registrations moves ++ (moves.foldl Fleet.step w).registrations more := by
  induction moves generalizing w with
  | nil =>
      rfl
  | cons move rest ih =>
      rw [List.cons_append, registrations, ih, registrations, List.append_assoc]
      rfl

theorem registrations_snoc (settings : ControlSettings) (moves : List Move) (move : Move) :
    (fresh settings).registrations (moves ++ [move]) =
      (fresh settings).registrations moves ++ ((run settings moves).registers? move).toList := by
  rw [registrations_append, registrations, registrations, List.append_nil, ← run]

theorem ids_hosts_begin (c : Controller) (env : Env) (order : Order) :
    (c.begin env order).1.hosts.map Host.id =
      Controller.enroll (c.hosts.map Host.id) order.registered? := by
  cases order with
  | start group cause =>
      exact congrArg _ (Controller.frame_beginStart c env group cause).right.right
  | stop id cause =>
      rfl
  | attach host =>
      exact (congrArg _ (Controller.hosts_beginAttach c host)).trans (Controller.ids_putHost host c.hosts)

theorem ids_hosts_go (w : Fleet) (t : Nat) (env : Env) (replies : List Reply) :
    (w.go t env replies).controller.hosts.map Host.id =
      Controller.enroll (w.controller.hosts.map Host.id) (w.registers? (.go t env replies)) := by
  rw [Fleet.go, registers?]
  split
  next htask =>
    rw [htask]
    rfl
  next htask =>
    rw [htask]
    rfl
  next order htask =>
    have hused : (w.placed.any fun a => a.id = env.serverId) = true ↔
        env.serverId ∈ w.placed.map Identity.id := by
      simp
    rw [htask]
    simp only [hused]
    split
    next =>
      rfl
    next =>
      exact ids_hosts_begin w.controller env order
  next order job htask =>
    rw [htask]
    split
    next =>
      exact congrArg _ (Controller.hosts_resume w.controller env job replies)
    next =>
      rfl

/-- A host that registers for the first time comes last, and the others keep their places. -/
theorem ids_hosts_step (w : Fleet) {move : Move} (hlasting : ∀ settings, move ≠ .restart settings) :
    (w.step move).controller.hosts.map Host.id =
      Controller.enroll (w.controller.hosts.map Host.id) (w.registers? move) := by
  cases move with
  | order _ | orderPass | weather _ _ _ =>
      rfl
  | stopNumber group number cause =>
      rw [Fleet.step]
      split
      next =>
        rfl
      next =>
        rfl
  | go t env replies =>
      exact ids_hosts_go w t env replies
  | goPass p =>
      rw [Fleet.step, controller_goPass]
      rfl
  | setState env id state =>
      rw [Fleet.step, Controller.setState, Controller.hosts_update]
      rfl
  | setProperty env id key value =>
      rw [Fleet.step, Controller.setProperty, Controller.hosts_update]
      rfl
  | restart settings =>
      exact absurd rfl (hlasting settings)

theorem nodup_hosts (settings : ControlSettings) (moves : List Move) :
    ((run settings moves).controller.hosts.map Host.id).Nodup := by
  refine (run_induction (P := fun w => (w.controller.hosts.map Host.id).Nodup) settings List.nodup_nil ?_
    moves).right
  intro w move h hnodup
  by_cases hlasting : ∀ settings', move ≠ .restart settings'
  · rw [ids_hosts_step w hlasting]
    exact Controller.nodup_enroll hnodup (w.registers? move)
  · simp only [ne_eq, not_forall, not_not] at hlasting
    rcases hlasting with ⟨settings', rfl⟩
    rw [Fleet.step, h.restart_eq]
    exact List.nodup_nil

def registered (settings : ControlSettings) (moves : List Move) : List HostId :=
  ((fresh settings).registrations moves).eraseDups

theorem ids_hosts_run (settings : ControlSettings) {moves : List Move}
    (hlasting : ∀ move ∈ moves, ∀ settings', move ≠ .restart settings') :
    (run settings moves).controller.hosts.map Host.id = registered settings moves := by
  induction moves using List.reverseRecOn with
  | nil =>
      rfl
  | append_singleton moves move ih =>
      rw [run_snoc, ids_hosts_step _ (hlasting move (List.mem_append_right _ List.mem_cons_self)),
        ih fun earlier hmem => hlasting earlier (List.mem_append_left _ hmem), registered,
        Controller.enroll_eraseDups, registered, registrations_snoc]

theorem registered_append (settings : ControlSettings) {opening moves : List Move}
    (hregistered : ∀ host ∈ (run settings opening).registrations moves,
      host ∈ (fresh settings).registrations opening) :
    registered settings (opening ++ moves) = registered settings opening := by
  have hagain : ((run settings opening).registrations moves).removeAll
      ((fresh settings).registrations opening) = [] := by
    rw [List.removeAll, List.filter_eq_nil_iff]
    intro host hhost
    simp [hregistered host hhost]
  rw [registered, registered, registrations_append, ← run, List.eraseDups_append, hagain,
    List.eraseDups_nil, List.append_nil]

end Fleet
end ServerFleet
