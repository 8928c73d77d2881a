import Mathlib.Data.List.Sort
import ServerFleet.Proofs.Fleet.Confinement
import ServerFleet.Proofs.Fleet.Crashes
import ServerFleet.Proofs.Fleet.Hosts

/-!
# What a registration leaves

A host that registers alone is asked about its servers in order.  The replies tell for
each of them, by itself, whether its record is refreshed or removed, and a refused
write keeps it as it is.  The report, the store, the numbers and the feed all tell the
same of it.
-/

namespace ServerFleet

def Identity.Before (a b : Identity) : Prop :=
  a.group < b.group ∨ a.group = b.group ∧ a.number < b.number

instance : Std.Asymm Identity.Before where
  asymm := by
    intro a b hab hba
    rcases hab with hless | ⟨hgroup, hless⟩
    · rcases hba with hless' | ⟨hgroup', _⟩
      · exact String.lt_asymm hless hless'
      · exact String.lt_irrefl _ (hgroup' ▸ hless)
    · rcases hba with hless' | ⟨_, hless'⟩
      · exact String.lt_irrefl _ (hgroup ▸ hless')
      · exact UInt32.lt_asymm hless hless'

def Progress.calls : Progress Job Outcome → List AgentCall
  | .waiting job => job.calls
  | .done _ => []

theorem Host.confirms_iff {host : Host} {answer : AgentCall → Reply} {s : Server} :
    host.Confirms answer s ↔ ∃ m, (answer (.reattach host s)).merged s = .ok m := by
  rw [← not_iff_not, Host.not_confirms_iff]
  cases (answer (.reattach host s)).merged s <;> simp

instance (host : Host) (answer : AgentCall → Reply) (s : Server) :
    Decidable (host.Confirms answer s) :=
  decidable_of_iff
    (((answer (.reattach host s)).answer.toOption.any fun theirs => theirs.id = s.id) = true) (by
      rw [Host.Confirms]
      cases (answer (.reattach host s)).answer <;> simp [Except.toOption])

namespace Controller

def asked (c : Controller) (host : Host) : List Server :=
  (c.store.byHost host.id).filter fun s => !c.store.isLaunching s.id

/-- A host confirms a server, and the database lets its record be written. -/
def Refreshes (c : Controller) (host : Host) (answer : AgentCall → Reply) (s : Server) : Prop :=
  host.Confirms answer s ∧ c.store.database.refusal (.saveServer s.id.text) = none

/-- A host does not confirm a server, and the database lets its record be deleted. -/
def Purges (c : Controller) (host : Host) (answer : AgentCall → Reply) (s : Server) : Prop :=
  ¬ host.Confirms answer s ∧ c.store.database.refusal (.deleteServer s.id.text) = none

instance (c : Controller) (host : Host) (answer : AgentCall → Reply) (s : Server) :
    Decidable (c.Refreshes host answer s) :=
  inferInstanceAs (Decidable (_ ∧ _))

instance (c : Controller) (host : Host) (answer : AgentCall → Reply) (s : Server) :
    Decidable (c.Purges host answer s) :=
  inferInstanceAs (Decidable (_ ∧ _))

structure Swept (c : Controller) (host : Host) (answer : AgentCall → Reply) (now : Time.Instant)
    (servers : List Server) (report : Report) (c' : Controller) (report' : Report) : Prop where
  reattached : report'.reattached =
    report.reattached ++ (servers.filter fun s => c.Refreshes host answer s).map Server.id
  purged : report'.purged =
    report.purged ++ (servers.filter fun s => c.Purges host answer s).map Server.id
  failed : report'.failed.map Prod.fst = report.failed.map Prod.fst ++
    (servers.filter fun s => ¬ c.Refreshes host answer s ∧ ¬ c.Purges host answer s).map Server.id
  taken : ∀ p, p ∈ c'.numbers ↔
    p ∈ c.numbers ∧ ∀ s ∈ servers, c.Purges host answer s → s.slot ≠ p
  events : c'.feed.events = c.feed.events ++
    (servers.filter fun s => c.Purges host answer s).map fun s => .stop s .hostLost now
  launching : c'.store.launching = c.store.launching
  refusal : c'.store.database.refusal = c.store.database.refusal

/-- A registration has left the controller and its report as the replies of the host tell. -/
structure Reattaches (c : Controller) (host : Host) (answer : AgentCall → Reply) (now : Time.Instant)
    (c' : Controller) (report : Report) : Prop where
  reattached_eq : report.reattached =
    ((c.asked host).filter fun s => c.Refreshes host answer s).map Server.id
  purged_eq : report.purged = ((c.asked host).filter fun s => c.Purges host answer s).map Server.id
  failed_eq : report.failed.map Prod.fst =
    ((c.asked host).filter fun s => ¬ c.Refreshes host answer s ∧ ¬ c.Purges host answer s).map Server.id
  disjoint : report.reattached.Disjoint report.purged
  refreshed : ∀ s ∈ c.asked host, c.Refreshes host answer s → s.id ∈ report.reattached ∧
    ∃ m, (answer (.reattach host s)).merged s = .ok m ∧ c'.store.get? s.id = some m ∧ c'.Retains m
  removed : ∀ s ∈ c.asked host, c.Purges host answer s → s.id ∈ report.purged ∧
    c'.store.Lacks s.id ∧ c'.numbers.isHeld s.group s.number.toNat = false
  /-- After a refused write all is as before. -/
  kept : ∀ s ∈ c.asked host, ¬ c.Refreshes host answer s → ¬ c.Purges host answer s →
    s.id ∉ report.reattached ∧ s.id ∉ report.purged ∧ c'.store.get? s.id = some s ∧ c'.Retains s
  others : ∀ id, (∀ s, c.store.get? id = some s → s.hostId ≠ host.id ∨ id ∈ c.store.launching) →
    c'.store.get? id = c.store.get? id
  held : ∀ group number, c'.numbers.isHeld group number = true ↔ c.numbers.isHeld group number = true ∧
    ∀ s ∈ c.asked host, c.Purges host answer s → s.slot ≠ (group, number)
  events : c'.feed.events = c.feed.events ++
    ((c.asked host).filter fun s => c.Purges host answer s).map fun s => .stop s .hostLost now
  loaded : c'.store.database.loadServers = .ok c'.store.all
  launching : c'.store.launching = c.store.launching
  appended : (∀ other ∈ c.hosts, other.id ≠ host.id) → c'.hosts = c.hosts ++ [host]
  replaced : ∀ before old after, c.hosts = before ++ old :: after → old.id = host.id →
    c'.hosts = before ++ host :: after

variable {c c' c'' : Controller} {host : Host} {answer : AgentCall → Reply} {env : Env}
  {now : Time.Instant} {placed : List Identity} {s : Server} {servers : List Server}
  {report report' report'' : Report}

/-!
# One reply
-/

theorem settle_eq (env : Env) (h : (c.books placed).Sound) (hs : c.store.get? s.id = some s)
    (report : Report) :
    (c.Refreshes host answer s ∧ ∃ m, (answer (.reattach host s)).merged s = .ok m ∧
      c.settle env report s (answer (.reattach host s)) =
        ({ c with store := c.store.stored m },
          { report with reattached := report.reattached ++ [s.id] })) ∨
    (c.Purges host answer s ∧
      c.settle env report s (answer (.reattach host s)) =
        (({ c with store := c.store.without s.id }.releaseNumber s).publish env
          (.stop s .hostLost env.now), { report with purged := report.purged ++ [s.id] })) ∨
    (¬ c.Refreshes host answer s ∧ ¬ c.Purges host answer s ∧ ∃ reason,
      c.settle env report s (answer (.reattach host s)) =
        (c, { report with failed := report.failed ++ [(s.id, .refused reason)] })) := by
  classical
  have hstore : c.store.Consistent := h.store
  have hmem : s ∈ c.store.index := (Store.mem_of_get? hs).left
  cases hmerged : (answer (.reattach host s)).merged s with
  | error e =>
      have hlost : ¬ host.Confirms answer s := Host.not_confirms_iff.mpr ⟨e, hmerged⟩
      simp only [settle, hmerged, purge, hstore.remove_eq, hs, Refreshes, Purges, hlost]
      cases c.store.database.refusal (.deleteServer s.id.text) with
      | none =>
          simp
      | some reason =>
          simp
  | ok m =>
      have hknown : host.Confirms answer s := Host.confirms_iff.mpr ⟨m, hmerged⟩
      have hidentity := Server.identity_of_merged hmerged
      have hid : m.id = s.id := Server.id_of_identity hidentity
      have hids : s.id ∈ Store.ids c.store.index := Store.mem_ids hmem
      have hplaced : m.identity ∈ placed := hidentity ▸ h.placed s hmem
      have hplace : ¬ c.store.Occupied m := h.not_occupied_of_placed hplaced (hid ▸ hids)
      simp only [settle, hmerged, Store.replace_eq, if_pos hids, hstore.save_eq, if_neg hplace, hid,
        Refreshes, Purges, hknown]
      cases c.store.database.refusal (.saveServer s.id.text) with
      | none =>
          simp [Except.map]
      | some reason =>
          simp [Except.map]

theorem settle_swept (env : Env) (h : (c.books placed).Sound) (hs : c.store.get? s.id = some s)
    (report : Report) :
    c.Swept host answer env.now [s] report (c.settle env report s (answer (.reattach host s))).1
      (c.settle env report s (answer (.reattach host s))).2 := by
  rcases settle_eq env h hs report with
    ⟨hrefreshed, m, _, hsettle⟩ | ⟨hpurged, hsettle⟩ | ⟨hrefused, hkept, reason, hsettle⟩
  · have hkept : ¬ c.Purges host answer s := fun hpurged => hpurged.left hrefreshed.left
    rw [hsettle]
    constructor <;> simp [hrefreshed, hkept, Store.stored]
  · have hlost : ¬ c.Refreshes host answer s := fun hrefreshed => hpurged.left hrefreshed.left
    rw [hsettle]
    constructor
    case taken =>
      intro p
      show p ∈ (c.numbers.release s.group s.number.toNat).2 ↔ _
      rw [Numbers.mem_release]
      simp [hpurged, Server.slot, ne_comm]
    case events =>
      show (c.feed.publish _ _ _).events = _
      rw [Feed.events_publish]
      simp [hpurged]
    all_goals
      simp [hpurged, hlost, publish, releaseNumber, Store.without]
  · rw [hsettle]
    constructor <;> simp [hrefused, hkept]

/-!
# All replies
-/

theorem Swept.nil : c.Swept host answer now [] report c report := by
  constructor <;> simp

theorem Refreshes.congr (hrefusal : c'.store.database.refusal = c.store.database.refusal) :
    c'.Refreshes host answer s ↔ c.Refreshes host answer s := by
  rw [Refreshes, Refreshes, hrefusal]

theorem Purges.congr (hrefusal : c'.store.database.refusal = c.store.database.refusal) :
    c'.Purges host answer s ↔ c.Purges host answer s := by
  rw [Purges, Purges, hrefusal]

theorem map_filter_cons {α : Type} (p : Server → Bool) (f : Server → α) (s : Server)
    (servers : List Server) :
    ((s :: servers).filter p).map f = ([s].filter p).map f ++ (servers.filter p).map f := by
  rw [← List.map_append, ← List.filter_append, List.singleton_append]

theorem Swept.cons (hfirst : c.Swept host answer now [s] report c' report')
    (hrest : c'.Swept host answer now servers report' c'' report'') :
    c.Swept host answer now (s :: servers) report c'' report'' := by
  have hrefreshes (s : Server) : c'.Refreshes host answer s ↔ c.Refreshes host answer s :=
    Refreshes.congr hfirst.refusal
  have hpurges (s : Server) : c'.Purges host answer s ↔ c.Purges host answer s :=
    Purges.congr hfirst.refusal
  constructor
  case reattached =>
    rw [hrest.reattached, hfirst.reattached, map_filter_cons _ _ s servers]
    simp only [hrefreshes, List.append_assoc]
  case purged =>
    rw [hrest.purged, hfirst.purged, map_filter_cons _ _ s servers]
    simp only [hpurges, List.append_assoc]
  case failed =>
    rw [hrest.failed, hfirst.failed, map_filter_cons _ _ s servers]
    simp only [hrefreshes, hpurges, List.append_assoc]
  case taken =>
    intro p
    rw [hrest.taken, hfirst.taken, and_assoc, List.forall_mem_singleton, List.forall_mem_cons]
    simp only [hpurges]
  case events =>
    rw [hrest.events, hfirst.events, map_filter_cons _ _ s servers]
    simp only [hpurges, List.append_assoc]
  case launching =>
    exact hrest.launching.trans hfirst.launching
  case refusal =>
    exact hrest.refusal.trans hfirst.refusal

/-- No reply but the one about a server itself touches the server, so each of them is found as it was at the
beginning. -/
theorem settleAll_swept (env : Env) (h : (c.books placed).Sound) (servers : List Server)
    (hstored : ∀ s ∈ servers, c.store.get? s.id = some s ∧ s.id ∉ c.store.launching)
    (hnodup : (Store.ids servers).Nodup) (report : Report) :
    c.Swept host answer env.now servers report
      (c.settleAll env report (servers.map fun s => (s, answer (.reattach host s)))).1
      (c.settleAll env report (servers.map fun s => (s, answer (.reattach host s)))).2 := by
  induction servers generalizing c report with
  | nil =>
      exact .nil
  | cons s rest ih =>
      rcases hstored s List.mem_cons_self with ⟨hs, hlanded⟩
      have hplaced : s.identity ∈ placed := h.placed s (Store.mem_of_get? hs).left
      rw [Store.ids, List.map_cons, List.nodup_cons] at hnodup
      have hfirst : c.Swept host answer env.now [s] report _ _ := settle_swept env h hs report
      have htouches := settle_touchesOnly env h hplaced hlanded report (answer (.reattach host s))
      rcases settle_frame env h hplaced hlanded report (answer (.reattach host s)) with
        ⟨hsound, hlaunching, _, _⟩
      rw [List.map_cons, settleAll]
      refine hfirst.cons (ih hsound ?_ hnodup.right _)
      intro r hr
      have hne : r.id ≠ s.id := by
        intro hid
        exact hnodup.left (hid ▸ Store.mem_ids hr)
      rcases hstored r (List.mem_cons_of_mem s hr) with ⟨hrs, hrlanded⟩
      rw [htouches.record r.id hne, hlaunching]
      exact ⟨hrs, hrlanded⟩

theorem Swept.withHosts {hosts : List Host}
    (h : ({ c with hosts } : Controller).Swept host answer now servers report c' report') :
    c.Swept host answer now servers report c' report' where
  reattached := h.reattached
  purged := h.purged
  failed := h.failed
  taken := h.taken
  events := h.events
  launching := h.launching
  refusal := h.refusal

/-!
# The whole registration
-/

theorem mem_asked : s ∈ c.asked host ↔
    s ∈ c.store.index ∧ s.hostId = host.id ∧ s.id ∉ c.store.launching := by
  rw [asked, List.mem_filter, Store.mem_byHost, Bool.not_eq_true', ← Bool.not_eq_true,
    Store.isLaunching_iff, and_assoc]

theorem sorted_asked (h : c.store.Consistent) (host : Host) : (c.asked host).Pairwise Server.Before :=
  (h.sorted_select _).filter _

theorem fits_asked (env : Env) (h : (c.books placed).Sound) (host : Host) :
    (Job.attach ⟨host, c.asked host⟩).Fits (c.books placed) := by
  have hbegins : c.Begins env (.attach host) [] _ := .sweeping
  exact Fleet.begins_fits hbegins h (.nil _)

theorem attachAlone_eq_settleAll (c : Controller) (env env' : Env) (host : Host)
    (answer : AgentCall → Reply) :
    (c.begin env (.attach host)).2.calls = (c.asked host).map (.reattach host) ∧
    c.attachAlone env env' host answer =
      let step := { c with hosts := putHost host c.hosts }.settleAll env' .empty
        ((c.asked host).map fun s => (s, answer (.reattach host s)))
      (step.1, .done (.attached host step.2)) := by
  rw [attachAlone, begin, beginAttach, asked, List.map_prod_left_eq_zip]
  simp only
  cases (c.store.byHost host.id).filter fun s => !c.store.isLaunching s.id with
  | nil =>
      exact ⟨rfl, rfl⟩
  | cons s rest =>
      refine ⟨rfl, ?_⟩
      simp only [List.isEmpty_cons, Bool.false_eq_true, if_false, Progress.lift, resume, finishAttach,
        Job.calls, Sweep.calls, List.map_map]
      rfl

theorem Refreshes.leaves (h : c.Refreshes host answer s) :
    ∃ m, (answer (.reattach host s)).merged s = .ok m ∧
      (answer (.reattach host s)).leaves c.store.database.refusal s (some s) = some m := by
  rcases Host.confirms_iff.mp h.left with ⟨m, hmerged⟩
  refine ⟨m, hmerged, ?_⟩
  simp only [Reply.leaves, hmerged]
  rw [if_pos h.right]
  rfl

theorem Purges.leaves (h : c.Purges host answer s) :
    (answer (.reattach host s)).leaves c.store.database.refusal s (some s) = none := by
  rcases Host.not_confirms_iff.mp h.left with ⟨e, hmerged⟩
  simp only [Reply.leaves, hmerged]
  rw [if_pos h.right]

theorem leaves_of_refused (hrefreshes : ¬ c.Refreshes host answer s) (hpurges : ¬ c.Purges host answer s) :
    (answer (.reattach host s)).leaves c.store.database.refusal s (some s) = some s := by
  cases hmerged : (answer (.reattach host s)).merged s with
  | error e =>
      have hlost := Host.not_confirms_iff.mpr ⟨e, hmerged⟩
      simp only [Reply.leaves, hmerged]
      exact if_neg fun hrefusal => hpurges ⟨hlost, hrefusal⟩
  | ok m =>
      have hknown := Host.confirms_iff.mpr ⟨m, hmerged⟩
      simp only [Reply.leaves, hmerged]
      exact if_neg fun hrefusal => hrefreshes ⟨hknown, hrefusal⟩

theorem retains_of_get? (h : (c.books placed).Sound) (hs : c.store.get? s.id = some s) : c.Retains s where
  record := ⟨s, hs, rfl, Store.Consistent.mem_rows h.store (Store.mem_of_get? hs).left⟩
  number := h.isHeld hs

theorem mem_map_id_filter (hnodup : (Store.ids servers).Nodup) (hs : s ∈ servers) (p : Server → Bool) :
    s.id ∈ (servers.filter p).map Server.id ↔ p s = true := by
  rw [List.mem_map]
  constructor
  · intro hid
    rcases hid with ⟨r, hr, hid⟩
    rcases List.mem_filter.mp hr with ⟨hr, hpr⟩
    rw [← List.inj_on_of_nodup_map hnodup hr hs hid]
    exact hpr
  · intro hps
    exact ⟨s, List.mem_filter.mpr ⟨hs, hps⟩, rfl⟩

theorem settleAll_reattaches (env : Env) (h : (c.books placed).Sound) (hnodup : (c.hosts.map Host.id).Nodup)
    (host : Host) (answer : AgentCall → Reply) :
    let step := { c with hosts := putHost host c.hosts }.settleAll env .empty
      ((c.asked host).map fun s => (s, answer (.reattach host s)))
    c.Reattaches host answer env.now step.1 step.2 ∧ (step.1.books placed).Sound := by
  have hfits := fits_asked env h host
  have hasked : ∀ s ∈ c.asked host, c.store.get? s.id = some s ∧ s.id ∉ c.store.launching := by
    intro s hs
    have hs := mem_asked.mp hs
    exact ⟨h.store.get?_eq_some_iff.mpr ⟨hs.left, rfl⟩, hs.right.right⟩
  have hpairs : ∀ p ∈ (c.asked host).map fun s => (s, answer (.reattach host s)),
      p.1.identity ∈ placed ∧ p.1.id ∉ c.store.launching := by
    intro p hp
    rcases List.mem_map.mp hp with ⟨s, hs, rfl⟩
    exact ⟨(hfits.right s hs).left, (hfits.right s hs).right.left⟩
  have hids : (((c.asked host).map fun s => (s, answer (.reattach host s))).map fun p => p.1.id).Nodup := by
    rw [List.map_map]
    exact hfits.left
  intro step
  have hhosts : step.1.hosts = putHost host c.hosts := hosts_settleAll _ _ _ _
  have hswept : c.Swept host answer env.now (c.asked host) .empty step.1 step.2 :=
    (settleAll_swept (c := { c with hosts := putHost host c.hosts }) env h (c.asked host) hasked
      hfits.left .empty).withHosts
  have hkeeps := settleAll_keeps (c := { c with hosts := putHost host c.hosts }) env h _ hpairs .empty
  have hrecord : ∀ s ∈ c.asked host, step.1.store.get? s.id =
      (answer (.reattach host s)).leaves c.store.database.refusal s (some s) := by
    intro s hs
    rw [← (hasked s hs).left]
    exact get?_settleAll (c := { c with hosts := putHost host c.hosts }) env h _ hpairs hids .empty
      (List.mem_map.mpr ⟨s, hs, rfl⟩)
  have hsound : (step.1.books placed).Sound := hkeeps.left
  have hothers := hkeeps.right.right
  change ∀ id, _ → step.1.store.get? id = c.store.get? id at hothers
  generalize step = result at *
  rcases result with ⟨c', report⟩
  refine ⟨?_, hsound⟩
  constructor
  case reattached_eq =>
    exact hswept.reattached
  case purged_eq =>
    exact hswept.purged
  case failed_eq =>
    exact hswept.failed
  case disjoint =>
    intro id hreattached hpurged
    rcases List.mem_map.mp (hswept.reattached ▸ hreattached) with ⟨s, hs, rfl⟩
    rcases List.mem_filter.mp hs with ⟨hs, hrefreshes⟩
    have hpurges := (mem_map_id_filter hfits.left hs _).mp (hswept.purged ▸ hpurged)
    exact (of_decide_eq_true hpurges).left (of_decide_eq_true hrefreshes).left
  case refreshed =>
    intro s hs hrefreshes
    rcases hrefreshes.leaves with ⟨m, hmerged, hleaves⟩
    have hm : c'.store.get? s.id = some m := (hrecord s hs).trans hleaves
    have hid : s.id = m.id := (Store.mem_of_get? hm).right.symm
    refine ⟨?_, m, hmerged, hm, retains_of_get? hsound (hid ▸ hm)⟩
    rw [hswept.reattached]
    exact (mem_map_id_filter hfits.left hs _).mpr (decide_eq_true hrefreshes)
  case removed =>
    intro s hs hpurges
    have hgone : c'.store.get? s.id = none := (hrecord s hs).trans hpurges.leaves
    refine ⟨?_, hsound.store.lacks (Store.get?_eq_none_iff.mp hgone), ?_⟩
    · rw [hswept.purged]
      exact (mem_map_id_filter hfits.left hs _).mpr (decide_eq_true hpurges)
    · rw [← Bool.not_eq_true, Numbers.isHeld_iff, hswept.taken]
      exact fun hheld => hheld.right s hs hpurges rfl
  case kept =>
    intro s hs hrefreshes hpurges
    have hsame : c'.store.get? s.id = some s := (hrecord s hs).trans (leaves_of_refused hrefreshes hpurges)
    refine ⟨?_, ?_, hsame, retains_of_get? hsound hsame⟩
    · rw [hswept.reattached]
      exact fun hid => hrefreshes (of_decide_eq_true ((mem_map_id_filter hfits.left hs _).mp hid))
    · rw [hswept.purged]
      exact fun hid => hpurges (of_decide_eq_true ((mem_map_id_filter hfits.left hs _).mp hid))
  case others =>
    intro id huntouched
    apply hothers
    intro p hp hid
    rcases List.mem_map.mp hp with ⟨s, hs, rfl⟩
    have hmem := mem_asked.mp hs
    rcases huntouched s (hid ▸ (hasked s hs).left) with hother | hlaunching
    · exact hother hmem.right.left
    · exact hmem.right.right (hid ▸ hlaunching)
  case held =>
    intro group number
    rw [Numbers.isHeld_iff, Numbers.isHeld_iff]
    exact hswept.taken (group, number)
  case events =>
    exact hswept.events
  case loaded =>
    exact hsound.store.loadServers_eq
  case launching =>
    exact hswept.launching
  case appended =>
    intro hnew
    exact hhosts.trans (putHost_of_new hnew)
  case replaced =>
    intro before old after hbefore hid
    rw [hbefore] at hnodup hhosts
    exact hhosts.trans (putHost_of_known hnodup hid)

/-!
# The same host once more
-/

theorem Reattaches.refreshes_or_purges (hr : c.Reattaches host answer now c' report)
    (hwritten : report.failed = []) (hs : s ∈ c.asked host) :
    c.Refreshes host answer s ∨ c.Purges host answer s := by
  have hfailed := hr.failed_eq
  rw [hwritten, List.map_nil, eq_comm, List.map_eq_nil_iff, List.filter_eq_nil_iff] at hfailed
  by_contra hneither
  rw [not_or] at hneither
  exact hfailed s hs (decide_eq_true hneither)

theorem Reattaches.exists_asked (hr : c.Reattaches host answer now c' report)
    (h' : c'.store.Consistent) (hs : s ∈ c'.asked host) : ∃ r ∈ c.asked host, r.id = s.id := by
  rcases mem_asked.mp hs with ⟨hmem, hhost, hlanded⟩
  rw [hr.launching] at hlanded
  by_contra hnone
  have hsame := hr.others s.id (by
    intro r hget
    by_contra hown
    rw [not_or, not_not] at hown
    have hrs := Store.mem_of_get? hget
    exact hnone ⟨r, mem_asked.mpr ⟨hrs.left, hown.left, hrs.right.symm ▸ hown.right⟩, hrs.right⟩)
  rw [h'.get?_eq_some_iff.mpr ⟨hmem, rfl⟩] at hsame
  exact hnone ⟨s, mem_asked.mpr ⟨(Store.mem_of_get? hsame.symm).left, hhost, hlanded⟩, rfl⟩

theorem Reattaches.asked_eq (hr : c.Reattaches host answer now c' report) (h : c.store.Consistent)
    (h' : c'.store.Consistent) (hwritten : report.failed = []) :
    (c'.asked host).map Server.identity =
      ((c.asked host).filter fun s => c.Refreshes host answer s).map Server.identity := by
  have hsorted {servers : List Server} (hbefore : servers.Pairwise Server.Before) :
      (servers.map Server.identity).Pairwise Identity.Before :=
    List.pairwise_map.mpr hbefore
  apply (hsorted (sorted_asked h' host)).eq_of_mem_iff (hsorted ((sorted_asked h host).filter _))
  intro a
  constructor
  · intro ha
    rcases List.mem_map.mp ha with ⟨r, hrs, rfl⟩
    rcases hr.exists_asked h' hrs with ⟨s, hs, hid⟩
    have hget : c'.store.get? s.id = some r :=
      h'.get?_eq_some_iff.mpr ⟨(mem_asked.mp hrs).left, hid.symm⟩
    rcases hr.refreshes_or_purges hwritten hs with hrefreshes | hpurges
    · rcases (hr.refreshed s hs hrefreshes).right with ⟨m, hmerged, hm, _⟩
      cases hget.symm.trans hm
      exact List.mem_map.mpr ⟨s, List.mem_filter.mpr ⟨hs, decide_eq_true hrefreshes⟩,
        (Server.identity_of_merged hmerged).symm⟩
    · have hgone := (hr.removed s hs hpurges).right.left.index
      rw [hget] at hgone
      cases hgone
  · intro ha
    rcases List.mem_map.mp ha with ⟨s, hs, rfl⟩
    rcases List.mem_filter.mp hs with ⟨hs, hrefreshes⟩
    rcases mem_asked.mp hs with ⟨_, hhost, hlanded⟩
    rcases (hr.refreshed s hs (of_decide_eq_true hrefreshes)).right with ⟨m, hmerged, hm, _⟩
    have hidentity := Server.identity_of_merged hmerged
    have hmem := Store.mem_of_get? hm
    refine List.mem_map.mpr ⟨m, mem_asked.mpr ⟨hmem.left, ?_, ?_⟩, hidentity⟩
    · exact (congrArg Identity.hostId hidentity).trans hhost
    · rw [hr.launching, hmem.right]
      exact hlanded

theorem Reattaches.again {c₁ c₂ : Controller} {answer' : AgentCall → Reply} {now' : Time.Instant}
    {refusal : Statement → Option String} {knowledge : Set ServerId}
    (hr : c.Reattaches host answer now c₁ report) (h : c.store.Consistent) (h' : c₁.store.Consistent)
    (hwritten : report.failed = [])
    (hr' : (c₁.refusing refusal).Reattaches host answer' now' c₂ report') (hwritten' : report'.failed = [])
    (hknown : ∀ s ∈ c.asked host, s.id ∈ knowledge ↔ host.Confirms answer s)
    (hknown' : ∀ s ∈ c₁.asked host, s.id ∈ knowledge ↔ host.Confirms answer' s) :
    report'.reattached = report.reattached ∧ report'.purged = [] := by
  have hasked := hr.asked_eq h h' hwritten
  have hconfirmed : ∀ s ∈ c₁.asked host, host.Confirms answer' s := by
    intro s hs
    have hidentity : s.identity ∈ (c₁.asked host).map Server.identity := List.mem_map.mpr ⟨s, hs, rfl⟩
    rw [hasked] at hidentity
    rcases List.mem_map.mp hidentity with ⟨r, hrs, hsame⟩
    rcases List.mem_filter.mp hrs with ⟨hrs, hrefreshes⟩
    rw [← hknown' s hs, ← Server.id_of_identity hsame, hknown r hrs]
    exact (of_decide_eq_true hrefreshes).left
  constructor
  · have hall : ((c₁.asked host).filter fun s => (c₁.refusing refusal).Refreshes host answer' s) =
        c₁.asked host := by
      rw [List.filter_eq_self]
      intro s hs
      rcases hr'.refreshes_or_purges hwritten' hs with hrefreshes | hpurges
      · exact decide_eq_true hrefreshes
      · exact absurd (hconfirmed s hs) hpurges.left
    have hids := congrArg (List.map Identity.id) hasked
    rw [List.map_map, List.map_map] at hids
    rw [hr'.reattached_eq, hr.reattached_eq]
    exact (congrArg (List.map Server.id) hall).trans hids
  · rw [hr'.purged_eq, List.map_eq_nil_iff, List.filter_eq_nil_iff]
    intro s hs hpurges
    exact (of_decide_eq_true hpurges).left (hconfirmed s hs)

theorem sound_refusing (h : (c.books placed).Sound) (refusal : Statement → Option String) :
    ((c.refusing refusal).books placed).Sound where
  store := consistent_refusing h.store refusal
  tidy := h.tidy
  taken := h.taken
  placed := h.placed
  unique := h.unique
  launching := h.launching

end Controller

namespace Fleet

/-- A host registers after any run, and nothing else goes on.  It is asked about its servers whose launch is
over, by group and number, and for each of them it is left as its reply and the database tell: those that
it confirms are refreshed and reported, the others are removed, reported and announced, and those whose
write is refused are kept.  Nothing else changes but its place among the hosts.  If it registers again with
the same knowledge, and no write is refused in either of the two, the same servers are reported, and
none is removed. -/
theorem registrations_are_exact (settings : ControlSettings) (moves : List Move) (env env' : Env)
    (host : Host) (answer : AgentCall → Reply) :
    let c := (run settings moves).controller
    (∀ s, s ∈ c.asked host ↔
      s ∈ c.store.index ∧ s.hostId = host.id ∧ s.id ∉ c.store.launching) ∧
    (c.asked host).Pairwise Server.Before ∧
    (c.begin env (.attach host)).2.calls = (c.asked host).map (.reattach host) ∧
    ∃ c' report, c.attachAlone env env' host answer = (c', .done (.attached host report)) ∧
      c.Reattaches host answer env'.now c' report ∧
      ∀ refusal env₁ env₂ answer' (knowledge : Set ServerId),
        (∀ s ∈ c.asked host, s.id ∈ knowledge ↔ host.Confirms answer s) →
        (∀ s ∈ c'.asked host, s.id ∈ knowledge ↔ host.Confirms answer' s) →
        ∃ c'' report',
          (c'.refusing refusal).attachAlone env₁ env₂ host answer' =
            (c'', .done (.attached host report')) ∧
          (report.failed = [] → report'.failed = [] →
            report'.reattached = report.reattached ∧ report'.purged = []) := by
  intro c
  have h : (c.books (run settings moves).placed).Sound := (sound_run settings moves).books
  have halone := Controller.attachAlone_eq_settleAll c env env' host answer
  rcases Controller.settleAll_reattaches env' h (nodup_hosts settings moves) host answer with ⟨hr, h'⟩
  refine ⟨fun s => Controller.mem_asked, Controller.sorted_asked h.store host, halone.left, _, _,
    halone.right, hr, ?_⟩
  intro refusal env₁ env₂ answer' knowledge hknown hknown'
  generalize hstep : Controller.settleAll _ _ _ _ = step at *
  have hhosts : (step.1.hosts.map Host.id).Nodup := by
    rw [← hstep, Controller.hosts_settleAll]
    exact Controller.nodup_putHost host (nodup_hosts settings moves)
  have hagain := Controller.attachAlone_eq_settleAll (step.1.refusing refusal) env₁ env₂ host answer'
  rcases Controller.settleAll_reattaches env₂ (Controller.sound_refusing h' refusal) hhosts host answer'
    with ⟨hr', _⟩
  exact ⟨_, _, hagain.right, fun hwritten hwritten' =>
    hr.again h.store h'.store hwritten hr' hwritten' hknown hknown'⟩

end Fleet
end ServerFleet
