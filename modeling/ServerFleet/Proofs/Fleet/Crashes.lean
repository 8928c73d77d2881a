import ServerFleet.Proofs.Fleet.Moves
import ServerFleet.Proofs.Fleet.Registrations

/-!
# Crashes

Whatever is under way when the process dies, the database holds a fleet in order: a
controller that comes up over it has the same servers and holds the same numbers.
What was left of launches is settled when their hosts register again.
-/

namespace ServerFleet

/-- A host registers while nothing else goes on: its agent answers all calls, and the answers are taken. -/
def Controller.attachAlone (c : Controller) (env env' : Env) (host : Host) (answer : AgentCall → Reply) :
    Controller × Progress Job Outcome :=
  match c.begin env (.attach host) with
  | (c, .done outcome) => (c, .done outcome)
  | (c, .waiting job) => c.resume env' job (job.calls.map answer)

def Host.Confirms (host : Host) (answer : AgentCall → Reply) (s : Server) : Prop :=
  ∃ theirs, (answer (.reattach host s)).answer = .ok theirs ∧ theirs.id = s.id

/-- A controller has come up over the database of another one: it has the same servers and holds the same
numbers, and knows neither of launches nor of hosts. -/
structure Controller.Recovers (c c' : Controller) : Prop where
  get?_eq : ∀ id, c'.store.get? id = c.store.get? id
  all_eq : c'.store.all = c.store.all
  held_eq : ∀ group, c'.numbers.held group = c.numbers.held group
  launching_eq : c'.store.launching = []
  hosts_eq : c'.hosts = []

structure Controller.Leaves (c c' : Controller) (host : Host) (confirmed : Set ServerId) : Prop where
  known : ∀ id r, c'.store.get? id = some r →
    ∃ s, c.store.get? id = some s ∧ s.identity = r.identity
  stored_iff : ∀ id, (∃ r, c'.store.get? id = some r ∧ r.hostId = host.id) ↔
    id ∈ confirmed ∧ ∃ s, c.store.get? id = some s ∧ s.hostId = host.id
  freed : ∀ id s, c.store.get? id = some s → s.hostId = host.id → id ∉ confirmed →
    c'.numbers.isHeld s.group s.number.toNat = false
  others : ∀ id s, c.store.get? id = some s → s.hostId ≠ host.id → c'.store.get? id = some s

theorem Controller.Leaves.congr {c₀ c c' : Controller} {host : Host} {confirmed : Set ServerId}
    (h : c.Leaves c' host confirmed) (hget : ∀ id, c.store.get? id = c₀.store.get? id) :
    c₀.Leaves c' host confirmed := by
  constructor
  case known =>
    intro id
    rw [← hget]
    exact h.known id
  case stored_iff =>
    intro id
    rw [← hget]
    exact h.stored_iff id
  case freed =>
    intro id
    rw [← hget]
    exact h.freed id
  case others =>
    intro id
    rw [← hget]
    exact h.others id

theorem Host.not_confirms_iff {host : Host} {answer : AgentCall → Reply} {s : Server} :
    ¬ host.Confirms answer s ↔ ∃ e, (answer (.reattach host s)).merged s = .error e := by
  rw [Confirms, Reply.merged]
  cases (answer (.reattach host s)).answer with
  | error e =>
      simp [Except.bind]
  | ok theirs =>
      by_cases hid : theirs.id = s.id
      · simp [Except.bind, Server.merge, hid]
      · simp [Except.bind, Server.merge, hid]

namespace Controller

variable {c : Controller} {placed : List Identity}

theorem owned_eq (hidle : c.store.launching = []) (host : Host) :
    ((c.store.byHost host.id).filter fun s => !c.store.isLaunching s.id) =
      c.store.byHost host.id := by
  rw [List.filter_eq_self]
  intro s _
  simp [Store.isLaunching, hidle]

def repliesOf (c : Controller) (host : Host) (answer : AgentCall → Reply) : List (Server × Reply) :=
  (c.store.byHost host.id).map fun s => (s, answer (.reattach host s))

theorem repliesOf_eq_zip (c : Controller) (host : Host) (answer : AgentCall → Reply) :
    c.repliesOf host answer = (c.store.byHost host.id).zip
      ((c.store.byHost host.id).map fun s => answer (.reattach host s)) :=
  List.map_prod_left_eq_zip

theorem mem_repliesOf {host : Host} {answer : AgentCall → Reply} {p : Server × Reply} :
    p ∈ c.repliesOf host answer ↔
      p.1 ∈ c.store.index ∧ p.1.hostId = host.id ∧ p.2 = answer (.reattach host p.1) := by
  rw [repliesOf, List.mem_map]
  constructor
  · intro hp
    rcases hp with ⟨s, hs, rfl⟩
    have hs := Store.mem_byHost.mp hs
    exact ⟨hs.left, hs.right, rfl⟩
  · intro hp
    exact ⟨p.1, Store.mem_byHost.mpr ⟨hp.left, hp.right.left⟩, Prod.ext rfl hp.right.right.symm⟩

theorem attachAlone_eq (hidle : c.store.launching = []) (env env' : Env) (host : Host)
    (answer : AgentCall → Reply) :
    c.attachAlone env env' host answer =
      let step := { c with hosts := putHost host c.hosts }.settleAll env' .empty
        (c.repliesOf host answer)
      (step.1, .done (.attached host step.2)) := by
  rw [attachAlone, begin, beginAttach]
  simp only [owned_eq hidle, repliesOf_eq_zip]
  cases hservers : c.store.byHost host.id with
  | nil =>
      rfl
  | cons s rest =>
      simp only [List.isEmpty_cons, Bool.false_eq_true, if_false, Progress.lift, resume, finishAttach,
        Job.calls, Sweep.calls, List.map_map]
      rfl

/-- The sweep of all servers of a host takes those away that the host does not confirm, and touches no
others. -/
theorem settleAll_repliesOf (env : Env) (h : (c.books placed).Sound) (hidle : c.store.launching = [])
    (hdeletes : ∀ key, c.store.database.refusal (.deleteServer key) = none) (host : Host)
    (answer : AgentCall → Reply) :
    ∃ es, (c.books placed).Edited env.now es
        ((c.settleAll env .empty (c.repliesOf host answer)).1.books placed) ∧
      (∀ e ∈ es, e.begun? = none) ∧
      (∀ e ∈ es, ∃ s ∈ c.store.index, s.hostId = host.id ∧ s.id = e.id) ∧
      ∀ id, (∃ e ∈ es, e.gone? = some id) ↔
        ∃ s ∈ c.store.index, s.hostId = host.id ∧ s.id = id ∧ ¬ host.Confirms answer s := by
  -- The job fits the books as the registration begins, and nothing can come between.
  have hfits : (Job.attach ⟨host, c.store.byHost host.id⟩).Fits (c.books placed) := by
    have hbegins : c.Begins env (.attach host) [] _ := .sweeping
    have hsweeping := Fleet.begins_fits hbegins h (.nil _)
    rw [owned_eq hidle] at hsweeping
    exact hsweeping
  have hpairs := hfits.pairs ((c.store.byHost host.id).map fun s => answer (.reattach host s))
  have hnodup := hfits.nodup_pairs ((c.store.byHost host.id).map fun s => answer (.reattach host s))
  rw [← repliesOf_eq_zip] at hpairs hnodup
  rcases settleAll_sweeps env h _ hpairs .empty with ⟨es, hsweeps, hedited⟩
  refine ⟨es, hedited, fun e he => (hsweeps.quiet e he).left, ?_, ?_⟩
  · intro e he
    rcases hsweeps.about e he with ⟨p, hp, hid⟩
    have hp := mem_repliesOf.mp hp
    exact ⟨p.1, hp.left, hp.right.left, hid⟩
  · intro id
    have hpurged := purged_settleAll_iff env h _ hpairs hnodup .empty id
    have hnone : id ∉ Report.empty.purged := List.not_mem_nil
    rw [hsweeps.purged_iff, hdeletes, or_iff_right hnone, or_iff_right hnone] at hpurged
    rw [hpurged]
    constructor
    · intro hmisses
      rcases hmisses.right.left with ⟨p, hp, hid, hfailed⟩
      have hp := mem_repliesOf.mp hp
      rw [hp.right.right] at hfailed
      exact ⟨p.1, hp.left, hp.right.left, hid, Host.not_confirms_iff.mpr hfailed⟩
    · intro hunconfirmed
      rcases hunconfirmed with ⟨s, hs, hhost, rfl, hfailed⟩
      exact ⟨Store.mem_ids hs, ⟨(s, answer (.reattach host s)), mem_repliesOf.mpr ⟨hs, hhost, rfl⟩, rfl,
        Host.not_confirms_iff.mp hfailed⟩, rfl⟩

theorem leaves_of_edited {c' : Controller} {now : Time.Instant} {es : List Edit}
    (h : (c.books placed).Sound) (hedited : (c.books placed).Edited now es (c'.books placed))
    (hquiet : ∀ e ∈ es, e.begun? = none) {host : Host} {answer : AgentCall → Reply}
    (habout : ∀ e ∈ es, ∃ s ∈ c.store.index, s.hostId = host.id ∧ s.id = e.id)
    (hgone : ∀ id, (∃ e ∈ es, e.gone? = some id) ↔
      ∃ s ∈ c.store.index, s.hostId = host.id ∧ s.id = id ∧ ¬ host.Confirms answer s)
    {confirmed : Set ServerId} (hconfirmed : ∀ s ∈ c.store.index, s.hostId = host.id →
      (s.id ∈ confirmed ↔ host.Confirms answer s)) :
    c.Leaves c' host confirmed := by
  have hstore : c.store.Consistent := h.store
  have hstill (id : ServerId) : id ∈ Store.ids c'.store.index ↔
      id ∈ Store.ids c.store.index ∧ ∀ e ∈ es, e.gone? ≠ some id :=
    hedited.mem_ids h hquiet
  have hsame {id : ServerId} {s r : Server} (hs : c.store.get? id = some s)
      (hr : c'.store.get? id = some r) : s.identity = r.identity := by
    have hs := Store.mem_of_get? hs
    have hr := Store.mem_of_get? hr
    exact hedited.identity_eq h hs.left hr.left (hs.right.trans hr.right.symm)
  have htaken {id : ServerId} {s : Server} (hs : c.store.get? id = some s) (hhost : s.hostId = host.id) :
      (∃ e ∈ es, e.gone? = some id) ↔ id ∉ confirmed := by
    have hs := Store.mem_of_get? hs
    rw [hgone, ← hs.right, hconfirmed s hs.left hhost]
    constructor
    · intro hunconfirmed
      rcases hunconfirmed with ⟨s', hs', _, hid, hfailed⟩
      rw [← hstore.eq_of_id hs' hs.left hid]
      exact hfailed
    · intro hfailed
      exact ⟨s, hs.left, hhost, rfl, hfailed⟩
  constructor
  case known =>
    intro id r hr
    have hmem := (hstill id).mp (Store.exists_get?_iff.mp ⟨r, hr⟩)
    rcases Store.exists_get?_iff.mpr hmem.left with ⟨s, hs⟩
    exact ⟨s, hs, hsame hs hr⟩
  case stored_iff =>
    intro id
    constructor
    · intro hstored
      rcases hstored with ⟨r, hr, hhost⟩
      have hmem := (hstill id).mp (Store.exists_get?_iff.mp ⟨r, hr⟩)
      rcases Store.exists_get?_iff.mpr hmem.left with ⟨s, hs⟩
      have hhost' : s.hostId = host.id := (congrArg Identity.hostId (hsame hs hr)).trans hhost
      refine ⟨?_, s, hs, hhost'⟩
      by_contra hunconfirmed
      rcases (htaken hs hhost').mpr hunconfirmed with ⟨e, he, hid⟩
      exact hmem.right e he hid
    · intro hleft
      rcases hleft with ⟨hid, s, hs, hhost⟩
      have hmem : id ∈ Store.ids c'.store.index := by
        refine (hstill id).mpr ⟨Store.exists_get?_iff.mp ⟨s, hs⟩, ?_⟩
        intro e he hgone
        exact (htaken hs hhost).mp ⟨e, he, hgone⟩ hid
      rcases Store.exists_get?_iff.mpr hmem with ⟨r, hr⟩
      exact ⟨r, hr, (congrArg Identity.hostId (hsame hs hr)).symm.trans hhost⟩
  case freed =>
    intro id s hs hhost hunconfirmed
    have hmem := Store.mem_of_get? hs
    rcases (htaken hs hhost).mpr hunconfirmed with ⟨e, he, hid⟩
    rw [← Bool.not_eq_true, Numbers.isHeld_iff]
    refine hedited.not_taken h hquiet hmem.left ?_
    intro hleft
    rw [hmem.right] at hleft
    exact ((hstill id).mp hleft).right e he hid
  case others =>
    intro id s hs hother
    refine (hedited.get?_eq h ?_).trans hs
    intro e he hid
    rcases habout e he with ⟨s', hs', hhost, hown⟩
    have hmem := Store.mem_of_get? hs
    have heq : s' = s := hstore.eq_of_id hs' hmem.left (hown.trans (hid.trans hmem.right.symm))
    exact hother (heq ▸ hhost)

theorem attachAlone_leaves (env env' : Env) (h : (c.books placed).Sound)
    (hidle : c.store.launching = [])
    (hdeletes : ∀ key, c.store.database.refusal (.deleteServer key) = none) {host : Host}
    {answer : AgentCall → Reply} {confirmed : Set ServerId}
    (hconfirmed : ∀ s ∈ c.store.index, s.hostId = host.id →
      (s.id ∈ confirmed ↔ host.Confirms answer s)) :
    (∃ report, (c.attachAlone env env' host answer).2 = .done (.attached host report)) ∧
      c.Leaves (c.attachAlone env env' host answer).1 host confirmed := by
  rcases settleAll_repliesOf (c := { c with hosts := putHost host c.hosts }) env' h hidle hdeletes host
    answer with ⟨es, hedited, hquiet, habout, hgone⟩
  rw [attachAlone_eq hidle]
  exact ⟨⟨_, rfl⟩, leaves_of_edited h hedited hquiet habout hgone hconfirmed⟩

end Controller

namespace Fleet

variable {w : Fleet}

theorem Sound.launch_left (h : w.Sound) {c' : Controller} {host : Host} {confirmed : Set ServerId}
    (hleaves : w.controller.Leaves c' host confirmed) {t : Nat} {order : Order} {work : StartWork}
    (htask : w.tasks t = some ⟨order, .asking (.start work)⟩)
    (hhost : work.provisional.hostId = host.id) :
    (∃ r, c'.store.get? work.provisional.id = some r) ↔ work.provisional.id ∈ confirmed := by
  have hfits : (Job.start work).Fits w.books := h.fits t _ htask
  rcases Controller.launching_record h.books hfits.left hfits.right.left with ⟨s, hs, hidentity⟩
  have hown : s.hostId = host.id := (congrArg Identity.hostId hidentity).trans hhost
  constructor
  · intro hleft
    rcases hleft with ⟨r, hr⟩
    rcases hleaves.known _ r hr with ⟨s', hs', hsame⟩
    cases hs.symm.trans hs'
    exact ((hleaves.stored_iff _).mp ⟨r, hr, (congrArg Identity.hostId hsame).symm.trans hown⟩).left
  · intro hconfirmed
    rcases (hleaves.stored_iff _).mpr ⟨hconfirmed, s, hs, hown⟩ with ⟨r, hr, _⟩
    exact ⟨r, hr⟩

/-- The process dies at any point of any run, and a controller is brought up over the database: it has the
same servers and holds the same numbers.  If no deletion is refused and a host then registers alone,
of its servers exactly those are left that its agent confirms, and of the launches that were in flight
on it when the process died as well. -/
theorem crash_recovery (settings settings' : ControlSettings) (moves : List Move) :
    ∃ c, Controller.assemble settings' (run settings moves).controller.store.database = .ok c ∧
      (run settings moves).controller.Recovers c ∧
      ((run settings moves).Deletes →
        ∀ (env env' : Env) (host : Host) (answer : AgentCall → Reply) (confirmed : Set ServerId),
          (∀ s ∈ (run settings moves).controller.store.index, s.hostId = host.id →
            (s.id ∈ confirmed ↔ host.Confirms answer s)) →
          (∃ report, (c.attachAlone env env' host answer).2 = .done (.attached host report)) ∧
            (run settings moves).controller.Leaves (c.attachAlone env env' host answer).1 host
              confirmed ∧
            ∀ t order work, (run settings moves).tasks t = some ⟨order, .asking (.start work)⟩ →
              work.provisional.hostId = host.id →
              ((∃ r, (c.attachAlone env env' host answer).1.store.get? work.provisional.id = some r) ↔
                work.provisional.id ∈ confirmed)) := by
  have h := sound_run settings moves
  generalize run settings moves = w at *
  have hget (id : ServerId) := Controller.get?_recovered h.books settings' id
  refine ⟨_, Controller.assemble_eq h.books settings', ?_, ?_⟩
  · exact
      { get?_eq := hget
        all_eq := Store.all_loaded _
        held_eq := Controller.held_recovered h.books settings'
        launching_eq := rfl
        hosts_eq := rfl }
  · intro hdeletes env env' host answer confirmed hconfirmed
    have halone := Controller.attachAlone_leaves env env'
      (Controller.sound_recovered h.books settings') rfl hdeletes
      (fun s hs => hconfirmed s (Store.mem_all.mp hs))
    have hleaves := halone.right.congr hget
    exact ⟨halone.left, hleaves, fun t order work => h.launch_left hleaves⟩

open Overlap in
/-- A launch is in flight when the process dies.  Its server is left if the host confirms it, and is gone if
the host cannot be reached. -/
theorem crash_recovery_in_flight :
    server ∈ (run settings (moves.take 5)).controller.store.launching ∧
    ∃ c, Controller.assemble settings (run settings (moves.take 5)).controller.store.database = .ok c ∧
      (∃ r, (c.attachAlone ⟨noon, server⟩ ⟨noon, server⟩ host fun _ => ⟨.ok answer, noon⟩).1.store.get?
        server = some r) ∧
      (c.attachAlone ⟨noon, server⟩ ⟨noon, server⟩ host fun _ =>
        ⟨.error (.unreachable "no route"), noon⟩).1.store.get? server = none := by
  have hsteady : ∀ move ∈ moves.take 5, move.Steady := by
    simp [moves, Move.Steady]
  have hstored : ∃ s, (run settings (moves.take 5)).controller.store.get? server = some s ∧
      s.hostId = host.id := by
    have hchecked : ((run settings (moves.take 5)).controller.store.get? server).any
        (fun s => s.hostId = host.id) = true := by
      decide +kernel
    rcases (Option.any_eq_true _ _).mp hchecked with ⟨s, hs, hhost⟩
    exact ⟨s, hs, of_decide_eq_true hhost⟩
  rcases crash_recovery settings settings (moves.take 5) with ⟨c, hassemble, _, hrecovers⟩
  have hdeletes := deletes_run settings hsteady
  refine ⟨by decide +kernel, c, hassemble, ?_, ?_⟩
  · have hconfirmed := hrecovers hdeletes ⟨noon, server⟩ ⟨noon, server⟩ host
      (fun _ => ⟨.ok answer, noon⟩) {server} (by simp [Host.Confirms, answer, eq_comm])
    rcases (hconfirmed.right.left.stored_iff server).mpr ⟨rfl, hstored⟩ with ⟨r, hr, _⟩
    exact ⟨r, hr⟩
  · have hunconfirmed := hrecovers hdeletes ⟨noon, server⟩ ⟨noon, server⟩ host
      (fun _ => ⟨.error (.unreachable "no route"), noon⟩) ∅ (by simp [Host.Confirms])
    have hleaves := hunconfirmed.right.left
    rcases hstored with ⟨s, hs, hhost⟩
    rw [Option.eq_none_iff_forall_ne_some]
    intro r hr
    rcases hleaves.known server r hr with ⟨s', hs', hsame⟩
    cases hs.symm.trans hs'
    exact ((hleaves.stored_iff server).mp
      ⟨r, hr, (congrArg Identity.hostId hsame).symm.trans hhost⟩).left

end Fleet
end ServerFleet
