import ServerFleet.Proofs.Fleet.Events
import ServerFleet.Proofs.Fleet.Invariant

/-!
# What registrations report

A sweep asks about the servers as they were when it began, and acts on the answers
when the last of them is in.  So of two registrations of one host each may take away
what the other has confirmed; but nothing is lost without being told of.
-/

namespace ServerFleet

def Sweep.Misses (sweep : Sweep) (replies : List Reply) (id : ServerId) : Prop :=
  ∃ p ∈ sweep.owned.zip replies, p.1.id = id ∧ ∃ e, p.2.merged p.1 = .error e

namespace Fleet

def Task.Took : Task → ServerId → Prop
  | ⟨.stop stopped _, .ended (.server (.ok _))⟩, id => stopped = id
  | ⟨.attach _, .ended (.attached _ report)⟩, id => id ∈ report.purged
  | _, _ => False

def Task.Confirmed : Task → ServerId → Prop
  | ⟨.attach _, .ended (.attached _ report)⟩, id => id ∈ report.reattached
  | _, _ => False

/-- What a task has said of servers is true: of those it took or had confirmed. -/
structure Task.Told (b : Books) (task : Task) : Prop where
  took : ∀ id, task.Took id → id ∈ b.placed.map Identity.id ∧ id ∉ Store.ids b.store.index
  confirmed : ∀ id, task.Confirmed id → id ∈ b.placed.map Identity.id ∧ id ∉ b.store.launching
  owned : ∀ id, task.Took id ∨ task.Confirmed id → ∀ host, task.order = .attach host →
    ∃ a ∈ b.placed, a.id = id ∧ a.hostId = host.id

/-- What a task says after a step with these edits is true, and the step has removed nothing in silence. -/
structure Task.Tells (b : Books) (es : List Edit) (task : Task) : Prop where
  told : task.Told b
  kept : ∀ id, task.Confirmed id → id ∈ Store.ids b.store.index
  removed : ∀ s cause, Edit.remove s cause ∈ es → task.Took s.id

/-- Everything that was said of servers is true, and a server that was confirmed is there unless somebody
says that he took it. -/
structure Told (w : Fleet) : Prop where
  tasks : ∀ t task, w.tasks t = some task → task.Told w.books
  kept : ∀ t task id, w.tasks t = some task → task.Confirmed id →
    id ∈ Store.ids w.controller.store.index ∨
      ∃ t' task', w.tasks t' = some task' ∧ task'.Took id

variable {w w' : Fleet} {b b' : Books}

theorem Task.Took.ended {task : Task} {id : ServerId} (h : task.Took id) :
    ∃ outcome, task.stage = .ended outcome := by
  cases task with
  | mk order stage =>
      cases stage with
      | ended outcome =>
          exact ⟨outcome, rfl⟩
      | ordered =>
          cases order <;> exact h.elim
      | asking job =>
          cases order <;> exact h.elim

theorem Task.not_told_of_ordered (order : Order) (id : ServerId) :
    ¬ Task.Took ⟨order, .ordered⟩ id ∧ ¬ Task.Confirmed ⟨order, .ordered⟩ id := by
  cases order with
  | start group cause =>
      exact ⟨fun hid => hid, fun hid => hid⟩
  | stop stopped cause =>
      exact ⟨fun hid => hid, fun hid => hid⟩
  | attach host =>
      exact ⟨fun hid => hid, fun hid => hid⟩

theorem Task.Told.silent {task : Task} (htook : ∀ id, ¬ task.Took id)
    (hconfirmed : ∀ id, ¬ task.Confirmed id) : task.Told b where
  took := by
    intro id h
    exact absurd h (htook id)
  confirmed := by
    intro id h
    exact absurd h (hconfirmed id)
  owned := by
    intro id h
    rcases h with h | h
    · exact absurd h (htook id)
    · exact absurd h (hconfirmed id)

theorem Task.Tells.silent {task : Task} {es : List Edit} (htook : ∀ id, ¬ task.Took id)
    (hconfirmed : ∀ id, ¬ task.Confirmed id) (hes : ∀ s cause, Edit.remove s cause ∉ es) :
    task.Tells b es where
  told := .silent htook hconfirmed
  kept := by
    intro id h
    exact absurd h (hconfirmed id)
  removed := by
    intro s cause hs
    exact absurd hs (hes s cause)

theorem Task.Told.keep {task : Task} (h : task.Told b) {now : Time.Instant} {es : List Edit}
    (hes : b.Edited now es b') (hsound : b.Sound) (hplaced : ∀ a ∈ b.placed, a ∈ b'.placed) :
    task.Told b' := by
  have hids {id : ServerId} (hid : id ∈ b.placed.map Identity.id) :
      id ∈ b'.placed.map Identity.id := by
    rcases List.mem_map.mp hid with ⟨a, ha, hsame⟩
    exact List.mem_map.mpr ⟨a, hplaced a ha, hsame⟩
  constructor
  case took =>
    intro id hid
    have htook := h.took id hid
    exact ⟨hids htook.left, hes.absent hsound htook.left htook.right⟩
  case confirmed =>
    intro id hid
    have hconfirmed := h.confirmed id hid
    exact ⟨hids hconfirmed.left, hes.landed hconfirmed.left hconfirmed.right⟩
  case owned =>
    intro id hid host horder
    rcases h.owned id hid host horder with ⟨a, ha, hsame⟩
    exact ⟨a, hplaced a ha, hsame⟩

/-!
# What a step says
-/

theorem begins_tells {c : Controller} {env : Env} {order : Order} {es : List Edit}
    {p : Progress Job Outcome} (h : c.Begins env order es p) (b : Books) :
    Task.Tells b es ⟨order, p.stage⟩ := by
  cases h with
  | attached =>
      apply Task.Tells.silent
      · intro id hid
        cases hid
      · intro id hid
        cases hid
      · intro s cause hs
        cases hs
  | placed _ _ _ =>
      refine .silent (fun _ hid => hid) (fun _ hid => hid) ?_
      intro s cause hs
      cases List.mem_singleton.mp hs
  | startRefused _ | stopRefused _ | stopping _ _ _ | sweeping =>
      refine .silent (fun _ hid => hid) (fun _ hid => hid) ?_
      intro s cause hs
      cases hs

theorem swept_told {now : Time.Instant} {es : List Edit} {sweep : Sweep} {replies : List Reply}
    {report : Report} (hsweeps : Controller.Sweeps .empty (sweep.owned.zip replies) es report)
    (hes : b.Edited now es b') (h : b.Sound) (hfits : (Job.attach sweep).Fits b) (id : ServerId) :
    (id ∈ report.purged → id ∉ Store.ids b'.store.index) ∧
    (id ∈ report.reattached → id ∈ Store.ids b'.store.index) ∧
    (id ∈ report.purged ∨ id ∈ report.reattached → ∃ s ∈ sweep.owned, s.id = id) := by
  have hquiet : ∀ e ∈ es, e.begun? = none := fun e he => (hsweeps.quiet e he).left
  have hnodup : (es.map Edit.id).Nodup :=
    (hfits.nodup_pairs replies).sublist hsweeps.sublist
  have howned {e : Edit} (he : e ∈ es) : ∃ s ∈ sweep.owned, s.id = e.id := by
    rcases hsweeps.about e he with ⟨p, hp, hsame⟩
    exact ⟨p.1, (List.of_mem_zip hp).left, hsame⟩
  have hpurged (hid : id ∈ report.purged) : ∃ e ∈ es, e.gone? = some id := by
    rcases hsweeps.purged_iff.mp hid with hid | hid
    · cases hid
    · exact hid
  have hreattached (hid : id ∈ report.reattached) : ∃ m, Edit.refresh m ∈ es ∧ m.id = id := by
    rcases hsweeps.reattached_iff.mp hid with hid | hid
    · cases hid
    · exact hid
  refine ⟨?_, ?_, ?_⟩
  · intro hid hmem
    rcases hpurged hid with ⟨e, he, hgone⟩
    exact ((hes.mem_ids h hquiet).mp hmem).right e he hgone
  · intro hid
    rcases hreattached hid with ⟨m, hm, rfl⟩
    refine (hes.mem_ids h hquiet).mpr ⟨hes.mem_ids_of_mem h hnodup hm rfl, ?_⟩
    intro e he hgone
    -- One server gets one edit, so the edit that takes it away would be the one that refreshes it.
    have hsame : e = .refresh m := List.inj_on_of_nodup_map hnodup he hm (Edit.id_of_gone? hgone)
    rw [hsame] at hgone
    cases hgone
  · intro hid
    rcases hid with hid | hid
    · rcases hpurged hid with ⟨e, he, hgone⟩
      rw [← Edit.id_of_gone? hgone]
      exact howned he
    · rcases hreattached hid with ⟨m, hm, rfl⟩
      exact howned hm

theorem resumes_start_tells {c : Controller} {env : Env} {work : StartWork} {replies : List Reply}
    {es : List Edit} {p : Progress Job Outcome} (h : c.Resumes env (.start work) replies es p)
    (group : String) (cause : Cause) (b : Books) : Task.Tells b es ⟨.start group cause, p.stage⟩ := by
  apply Task.Tells.silent
  · intro id hid
    cases h <;> exact hid
  · intro id hid
    cases h <;> exact hid
  · intro s cause hs
    cases h with
    | committed _ | failed _ _ | failedKept _ _ | undone _ _ | undoneKept _ _ =>
        cases List.mem_singleton.mp hs
    | uncommitted _ _ =>
        cases hs

theorem resumes_stop_tells {c : Controller} {env : Env} {k : Stopping} {replies : List Reply}
    {es : List Edit} {p : Progress Job Outcome} (h : c.Resumes env (.stop k) replies es p)
    {placed : List Identity} (hsound : (c.books placed).Sound)
    (hes : (c.books placed).Edited env.now es b') (hplaced : b'.placed = placed) (cause : Cause) :
    Task.Tells b' es ⟨.stop k.server.id cause, p.stage⟩ := by
  cases h with
  | stopFailed _ =>
      refine .silent (fun _ hid => hid) (fun _ hid => hid) ?_
      intro s cause hs
      cases hs
  | @stopped _ _ answer r hanswer hid =>
      have hedit := Books.edited_single_iff.mp hes
      have hgone : r.id ∈ b'.placed.map Identity.id ∧ r.id ∉ Store.ids b'.store.index := by
        constructor
        · rw [hplaced]
          exact hsound.placed_of_ids (Store.mem_ids hedit.left.left)
        · rw [hedit.right, hsound.mem_ids_edit hedit.left]
          simp [Edit.begun?, Edit.gone?]
      refine ⟨⟨?_, fun _ hid => hid.elim, ?_⟩, fun _ hid => hid.elim, ?_⟩
      · intro id htook
        have hsame : k.server.id = id := htook
        rw [← hsame, ← hid]
        exact hgone
      · intro id _ host horder
        cases horder
      · intro s cause hs
        cases List.mem_singleton.mp hs
        exact hid.symm

theorem resumes_sweep_tells {c : Controller} {env : Env} {sweep : Sweep} {replies : List Reply}
    {es : List Edit} {p : Progress Job Outcome} (h : c.Resumes env (.attach sweep) replies es p)
    {placed : List Identity} (hsound : (c.books placed).Sound)
    (hjob : (Job.attach sweep).Fits (c.books placed)) (hes : (c.books placed).Edited env.now es b')
    (hplaced : b'.placed = placed) : Task.Tells b' es ⟨.attach sweep.host, p.stage⟩ := by
  cases h with
  | @swept _ _ _ report hsweeps =>
      have htold := swept_told hsweeps hes hsound hjob
      have howned {id : ServerId} (hid : id ∈ report.purged ∨ id ∈ report.reattached) :
          ∃ s : Server, s.identity ∈ b'.placed ∧ s.id = id ∧ s.id ∉ c.store.launching ∧
            s.hostId = sweep.host.id := by
        rcases (htold id).right.right hid with ⟨s, hs, hsame⟩
        have hserver := hjob.right s hs
        exact ⟨s, hplaced ▸ hserver.left, hsame, hserver.right⟩
      refine ⟨⟨?_, ?_, ?_⟩, ?_, ?_⟩
      · intro id hid
        rcases howned (Or.inl hid) with ⟨s, hs, hsame, _⟩
        exact ⟨List.mem_map.mpr ⟨_, hs, hsame⟩, (htold id).left hid⟩
      · intro id hid
        rcases howned (Or.inr hid) with ⟨s, hs, hsame, hlanded, _⟩
        refine ⟨List.mem_map.mpr ⟨_, hs, hsame⟩, ?_⟩
        rw [← hsame]
        exact hes.landed (List.mem_map.mpr ⟨_, hplaced ▸ hs, rfl⟩) hlanded
      · intro id hid host horder
        cases horder
        rcases howned hid with ⟨s, hs, hsame, _, hhost⟩
        exact ⟨s.identity, hs, hsame, hhost⟩
      · intro id hid
        exact (htold id).right.left hid
      · intro s cause hs
        exact hsweeps.purged_iff.mpr (Or.inr ⟨_, hs, rfl⟩)

theorem resumes_tells {c : Controller} {env : Env} {job : Job} {replies : List Reply}
    {es : List Edit} {p : Progress Job Outcome} (h : c.Resumes env job replies es p)
    {placed : List Identity} (hsound : (c.books placed).Sound) (hjob : job.Fits (c.books placed))
    (hes : (c.books placed).Edited env.now es b') (hplaced : b'.placed = placed) {order : Order}
    (hadmits : Admits order (.asking job)) : Task.Tells b' es ⟨order, p.stage⟩ := by
  cases order with
  | start group cause =>
      rcases hadmits with ⟨work, rfl⟩
      exact resumes_start_tells h group cause b'
  | stop id cause =>
      rcases hadmits with ⟨k, rfl, rfl, _⟩
      exact resumes_stop_tells h hsound hes hplaced cause
  | attach host =>
      rcases hadmits with ⟨sweep, rfl, rfl⟩
      exact resumes_sweep_tells h hsound hjob hes hplaced

/-!
# Moves
-/

theorem Told.advanced (hw : w.Told) (h : w.Sound) {t : Nat} {order : Order} {old stage : Stage}
    (ha : Advanced w w' t order old stage) (hsilent : ∀ outcome, old ≠ .ended outcome)
    {now : Time.Instant} {es : List Edit} (hes : w.books.Edited now es w'.books)
    (htells : Task.Tells w'.books es ⟨order, stage⟩) : w'.Told := by
  constructor
  case tasks =>
    intro u task htask
    by_cases hu : u = t
    · rw [hu, ha.mine] at htask
      cases htask
      exact htells.told
    · rw [ha.others hu] at htask
      exact (hw.tasks u task htask).keep hes h.books ha.placed
  case kept =>
    intro u task id htask hid
    by_cases hu : u = t
    · rw [hu, ha.mine] at htask
      cases htask
      exact Or.inl (htells.kept id hid)
    · rw [ha.others hu] at htask
      rcases hw.kept u task id htask hid with hmem | ⟨v, task', htask', htook⟩
      · have hlanded := ((hw.tasks u task htask).confirmed id hid).right
        rcases hes.present h.books hmem hlanded with hmem | ⟨s, cause, hs, hsame⟩
        · exact Or.inl hmem
        · exact Or.inr ⟨t, _, ha.mine, hsame ▸ htells.removed s cause hs⟩
      · have hv : v ≠ t := by
          intro hv
          rw [hv, ha.before] at htask'
          cases htask'
          rcases htook.ended with ⟨outcome, hended⟩
          exact hsilent outcome hended
        exact Or.inr ⟨v, task', by rw [ha.others hv]; exact htask', htook⟩

theorem Told.go (hw : w.Told) (h : w.Sound) (t : Nat) (env : Env) (replies : List Reply) :
    (w.go t env replies).Told := by
  rw [Fleet.go]
  split
  next =>
    exact hw
  next =>
    exact hw
  next order hold =>
    split
    next =>
      exact hw
    next hfresh =>
      rcases Controller.begins_begin h.books hfresh order with ⟨es, hbegins, hedited⟩
      exact hw.advanced h (advanced_begin hold hfresh hbegins hedited)
        (fun _ hended => by cases hended) hedited (begins_tells hbegins _)
  next order job hold =>
    split
    next =>
      have hjob : job.Fits w.books := h.fits t _ hold
      rcases Controller.resumes_resume env h.books hjob replies with ⟨es, hresumes, hedited⟩
      have ha := advanced_resume hold hjob hresumes hedited
      rw [← books_resume t order hresumes] at hedited
      have htells := resumes_tells hresumes h.books hjob hedited (placed_resume t order hresumes)
        (h.admits t _ hold)
      exact hw.advanced h ha (fun _ hended => by cases hended) hedited htells
    next =>
      exact hw

theorem Told.withController (hw : w.Told) {controller : Controller}
    (hids : ∀ id, id ∈ Store.ids controller.store.index ↔ id ∈ Store.ids w.controller.store.index)
    (hlaunching : controller.store.launching = w.controller.store.launching) :
    ({ w with controller } : Fleet).Told := by
  constructor
  case tasks =>
    intro t task htask
    have htold := hw.tasks t task htask
    constructor
    case took =>
      intro id hid
      have htook := htold.took id hid
      refine ⟨htook.left, ?_⟩
      intro hmem
      exact htook.right ((hids id).mp hmem)
    case confirmed =>
      intro id hid
      have hconfirmed := htold.confirmed id hid
      refine ⟨hconfirmed.left, ?_⟩
      show id ∉ controller.store.launching
      rw [hlaunching]
      exact hconfirmed.right
    case owned =>
      exact htold.owned
  case kept =>
    intro t task id htask hid
    rcases hw.kept t task id htask hid with hmem | htook
    · exact Or.inl ((hids id).mpr hmem)
    · exact Or.inr htook

theorem Told.spawn (hw : w.Told) (h : w.Sound) (order : Order) : (w.spawn order).Told := by
  have hfree : w.tasks w.next = none := h.bound w.next (Nat.le_refl _)
  constructor
  case tasks =>
    intro t task htask
    by_cases ht : t = w.next
    · rw [ht, tasks_spawn, Function.update_self] at htask
      cases htask
      exact .silent (fun id => (Task.not_told_of_ordered order id).left)
        (fun id => (Task.not_told_of_ordered order id).right)
    · rw [tasks_spawn, Function.update_of_ne ht] at htask
      exact hw.tasks t task htask
  case kept =>
    intro t task id htask hid
    by_cases ht : t = w.next
    · rw [ht, tasks_spawn, Function.update_self] at htask
      cases htask
      exact absurd hid (Task.not_told_of_ordered order id).right
    · rw [tasks_spawn, Function.update_of_ne ht] at htask
      rcases hw.kept t task id htask hid with hmem | ⟨u, task', htask', htook⟩
      · exact Or.inl hmem
      · have hu : u ≠ w.next := by
          intro hu
          rw [hu, hfree] at htask'
          cases htask'
        refine Or.inr ⟨u, task', ?_, htook⟩
        rw [tasks_spawn, Function.update_of_ne hu]
        exact htask'

theorem Told.advancePass (hw : w.Told) (h : w.Sound) (p : Nat) (progress : Progress Pass PassStats) :
    (w.advancePass p progress).Told := by
  cases progress with
  | done stats =>
      exact ⟨hw.tasks, hw.kept⟩
  | waiting pass =>
      have hspawn := hw.spawn h pass.order
      exact ⟨hspawn.tasks, hspawn.kept⟩

theorem Told.goPass (hw : w.Told) (h : w.Sound) (p : Nat) : (w.goPass p).Told := by
  rw [Fleet.goPass]
  split
  next =>
    exact hw
  next =>
    exact hw
  next =>
    split
    next =>
      exact ⟨hw.tasks, hw.kept⟩
    next =>
      exact hw.advancePass h p _
  next =>
    split
    next =>
      exact hw.advancePass h p _
    next =>
      exact hw

theorem Told.update (hw : w.Told) (h : w.Sound) (env : Env) (id : ServerId)
    {change : Server → Server} (hchange : ∀ s, (change s).identity = s.identity) :
    ({ w with controller := (w.controller.update env id change).1 } : Fleet).Told := by
  rcases Controller.update_cases env h.books id hchange with
    ⟨e, hupdate, _⟩ | ⟨before, after, c', hupdate, _, hfits, hbooks⟩
  · rw [hupdate]
    exact hw
  · rw [hupdate]
    apply hw.withController
    · intro id'
      have hsound : (w.controller.books w.placed).Sound := h.books
      show id' ∈ Store.ids (c'.books w.placed).store.index ↔ _
      rw [hbooks, hsound.mem_ids_edit hfits]
      simp [Edit.begun?, Edit.gone?, Controller.books]
    · exact congrArg (fun b => b.store.launching) hbooks

theorem Told.step (hw : w.Told) (h : w.Sound) (move : Move) : (w.step move).Told := by
  cases move with
  | order order =>
      exact hw.spawn h order
  | stopNumber group number cause =>
      rw [Fleet.step]
      split
      next =>
        exact hw
      next s _ =>
        exact hw.spawn h _
  | orderPass =>
      exact ⟨hw.tasks, hw.kept⟩
  | go t env replies =>
      exact hw.go h t env replies
  | goPass p =>
      exact hw.goPass h p
  | setState env id state =>
      exact hw.update h env id fun _ => rfl
  | setProperty env id key value =>
      exact hw.update h env id fun _ => rfl
  | weather groups hasGroups refusal =>
      exact hw.withController (fun _ => Iff.rfl) rfl
  | restart settings =>
      rw [Fleet.step, h.restart_eq]
      constructor
      case tasks =>
        intro t task htask
        cases htask
      case kept =>
        intro t task id htask
        cases htask

theorem told_run (settings : ControlSettings) (moves : List Move) : (run settings moves).Told := by
  refine (run_induction settings ?_ ?_ moves).right
  · constructor
    case tasks =>
      intro t task htask
      cases htask
    case kept =>
      intro t task id htask
      cases htask
  · intro w move h hw
    exact hw.step h move

/-!
# Confirmed servers
-/

theorem Sound.held_of_mem (h : w.Sound) {id : ServerId}
    (hid : id ∈ Store.ids w.controller.store.index) :
    ∃ s, w.controller.store.get? id = some s ∧
      w.controller.numbers.isHeld s.group s.number.toNat = true := by
  rcases Store.exists_get?_iff.mpr hid with ⟨s, hs⟩
  exact ⟨s, hs, h.books.isHeld hs⟩

def Reports (w : Fleet) (t : Nat) (host : Host) (report : Report) : Prop :=
  w.tasks t = some ⟨.attach host, .ended (.attached host report)⟩

def Stopped (w : Fleet) (t : Nat) (id : ServerId) : Prop :=
  ∃ cause s, w.tasks t = some ⟨.stop id cause, .ended (.server (.ok s))⟩

theorem Sound.reports_or_stopped (h : w.Sound) {t : Nat} {task : Task} {id : ServerId}
    (htask : w.tasks t = some task) (htook : task.Took id) :
    (∃ host report, w.Reports t host report ∧ id ∈ report.purged) ∨ w.Stopped t id := by
  have hadmits := h.admits t task htask
  rcases htook.ended with ⟨outcome, hended⟩
  cases task with
  | mk order stage =>
      cases hended
      cases order with
      | start group cause =>
          exact htook.elim
      | stop stopped cause =>
          rcases hadmits with ⟨result, rfl, _⟩
          cases result with
          | error e =>
              exact htook.elim
          | ok s =>
              have hstopped : stopped = id := htook
              rw [hstopped] at htask
              exact Or.inr ⟨cause, s, htask⟩
      | attach host =>
          rcases hadmits with ⟨report, rfl⟩
          exact Or.inl ⟨host, report, htask, htook⟩

theorem Sound.purged_iff (h : w.Sound) {t : Nat} {host : Host} {sweep : Sweep} {env : Env}
    {replies : List Reply} {report : Report}
    (htask : w.tasks t = some ⟨.attach host, .asking (.attach sweep)⟩)
    (hreports : (w.step (.go t env replies)).Reports t host report) {id : ServerId} :
    id ∈ report.purged ↔ id ∈ Store.ids w.controller.store.index ∧ sweep.Misses replies id ∧
      w.controller.store.database.refusal (.deleteServer id.text) = none := by
  have hfits : (Job.attach sweep).Fits w.books := h.fits t _ htask
  rw [Reports, Fleet.step, Fleet.go, htask] at hreports
  simp only at hreports
  split at hreports
  next =>
    simp only [advance, Function.update_self] at hreports
    cases hreports
    have hpurged := Controller.purged_settleAll_iff env h.books _ (hfits.pairs replies)
      (hfits.nodup_pairs replies) .empty id
    exact hpurged.trans (or_iff_right List.not_mem_nil)
  next =>
    rw [htask] at hreports
    cases hreports

/-- A server that was confirmed is lost only to those who say so. -/
structure StaysUntilTaken (w : Fleet) (host : Host) (id : ServerId) : Prop where
  stored_iff : (∃ s, w.controller.store.get? id = some s ∧
      w.controller.numbers.isHeld s.group s.number.toNat = true) ↔
    (∀ i host' report, w.Reports i host' report → id ∉ report.purged) ∧ ∀ i, ¬ w.Stopped i id
  host_eq : ∀ i host' report, w.Reports i host' report → id ∈ report.purged → host'.id = host.id
  purged_iff : ∀ i host' sweep env replies report,
    w.tasks i = some ⟨.attach host', .asking (.attach sweep)⟩ →
    (w.step (.go i env replies)).Reports i host' report →
    (id ∈ report.purged ↔ (∃ s, w.controller.store.get? id = some s) ∧ sweep.Misses replies id ∧
      w.controller.store.database.refusal (.deleteServer id.text) = none)

/-- A server that a registration reports as confirmed is stored and holds its number unless a stop has
taken it away, or another registration of the same host whose own call about it has failed. -/
theorem confirmed_server_stays_until_taken (settings : ControlSettings) (moves : List Move) {j : Nat}
    {host : Host} {report : Report} (hj : (run settings moves).Reports j host report) {id : ServerId}
    (hid : id ∈ report.reattached) : (run settings moves).StaysUntilTaken host id := by
  have h := sound_run settings moves
  have hw := told_run settings moves
  generalize run settings moves = w at *
  have hconfirmed : Task.Confirmed ⟨.attach host, .ended (.attached host report)⟩ id := hid
  constructor
  case stored_iff =>
    constructor
    · intro hstored
      rcases hstored with ⟨s, hs, _⟩
      have hmem : id ∈ Store.ids w.controller.store.index := Store.exists_get?_iff.mp ⟨s, hs⟩
      constructor
      · intro i host' report' hi hpurged
        exact ((hw.tasks i _ hi).took id hpurged).right hmem
      · intro i hi
        rcases hi with ⟨cause, s, hi⟩
        exact ((hw.tasks i _ hi).took id rfl).right hmem
    · intro hnobody
      rcases hw.kept j _ id hj hconfirmed with hmem | ⟨i, task, htask, htook⟩
      · exact h.held_of_mem hmem
      · rcases h.reports_or_stopped htask htook with ⟨host', report', hi, hpurged⟩ | hi
        · exact absurd hpurged (hnobody.left i host' report' hi)
        · exact absurd hi (hnobody.right i)
  case host_eq =>
    intro i host' report' hi hpurged
    rcases (hw.tasks j _ hj).owned id (Or.inr hconfirmed) host rfl with ⟨a, ha, haid, hahost⟩
    rcases (hw.tasks i _ hi).owned id (Or.inl hpurged) host' rfl with ⟨a', ha', haid', hahost'⟩
    have hsame : a = a' := h.books.identity_eq ha ha' (haid.trans haid'.symm)
    rw [← hahost, ← hahost', hsame]
  case purged_iff =>
    intro i host' sweep env replies report' hi hreports
    rw [h.purged_iff hi hreports, ← Store.exists_get?_iff]

/-!
# Two registrations that overlap

A host with one server registers twice.  The second registration, under a new
endpoint, has the server confirmed; the call of the first then fails, and the server
is purged.
-/

def reports? (w : Fleet) (t : Nat) (host : Host) (reattached purged : List ServerId) : Bool :=
  match w.tasks t with
  | some ⟨.attach host', .ended (.attached host'' ⟨reattached', purged', []⟩)⟩ =>
      decide (host' = host ∧ host'' = host ∧ reattached' = reattached ∧ purged' = purged)
  | _ => false

theorem reports_of_reports? {t : Nat} {host : Host} {reattached purged : List ServerId}
    (h : w.reports? t host reattached purged = true) : w.Reports t host ⟨reattached, purged, []⟩ := by
  rw [reports?] at h
  split at h
  next htask =>
    rcases of_decide_eq_true h with ⟨rfl, rfl, rfl, rfl⟩
    exact htask
  next =>
    cases h

namespace Overlap

def settings : ControlSettings :=
  ⟨⟨0⟩, "secret"⟩

def group : GroupRow where
  key := "lobby"
  body := "[\"lobby\",\"game\",512,1024,30000,1,5,10,80]"

def host : Host :=
  ⟨Id.ofNat 1, "10.0.0.1", "http://10.0.0.1:7000"⟩

def moved : Host :=
  ⟨Id.ofNat 1, "10.0.0.1", "http://10.0.0.1:7001"⟩

def server : ServerId :=
  Id.ofNat 7

def noon : Time.Instant :=
  ⟨⟨2024, 1, 1, by decide, by decide, by decide⟩, 43200, 0, by decide, by decide⟩

def answer : Server where
  id := server
  group := "lobby"
  serverType := "game"
  number := 1
  hostId := host.id
  address := host.address
  port := 30000
  memoryMin := 512
  memoryMax := 1024
  maxPlayers := 10
  playerCount := 0
  properties := .empty
  state := .online
  createdAt := noon
  updatedAt := noon

/-- The host registers, and a server is started on it.  Then it registers again, and once more under its new
endpoint while the first of these registrations waits: the call of that one fails when the other is over. -/
def moves : List Move := [
  .weather [group] true fun _ => none,
  .order (.attach host),
  .go 0 ⟨noon, server⟩ [],
  .order (.start "lobby" .api),
  .go 1 ⟨noon, server⟩ [],
  .go 1 ⟨noon, Id.ofNat 8⟩ [⟨.ok answer, noon⟩],
  .order (.attach host),
  .go 2 ⟨noon, Id.ofNat 8⟩ [],
  .order (.attach moved),
  .go 3 ⟨noon, Id.ofNat 8⟩ [],
  .go 3 ⟨noon, Id.ofNat 8⟩ [⟨.ok answer, noon⟩],
  .go 2 ⟨noon, Id.ofNat 8⟩ [⟨.error (.unreachable "old endpoint"), noon⟩]]

theorem reports :
    (run settings moves).Reports 2 host ⟨[], [server], []⟩ ∧
      (run settings moves).Reports 3 moved ⟨[server], [], []⟩ := by
  have hchecked : ((run settings moves).reports? 2 host [] [server] &&
      (run settings moves).reports? 3 moved [server] []) = true := by
    decide +kernel
  rw [Bool.and_eq_true] at hchecked
  exact ⟨reports_of_reports? hchecked.left, reports_of_reports? hchecked.right⟩

end Overlap

open Overlap in
/-- No stop is requested, the later registration confirms the server, and the server is gone. -/
theorem confirmed_server_can_be_lost :
    host.id = moved.id ∧ (∀ id cause, Move.order (.stop id cause) ∉ moves) ∧
      (∀ group number cause, Move.stopNumber group number cause ∉ moves) ∧
      (run settings moves).Reports 2 host ⟨[], [server], []⟩ ∧
      (run settings moves).Reports 3 moved ⟨[server], [], []⟩ ∧
      (run settings moves).controller.store.get? server = none := by
  refine ⟨rfl, ?_, ?_, reports.left, reports.right, ?_⟩
  · simp [moves]
  · simp [moves]
  · have htold := (told_run settings moves).tasks 2 _ reports.left
    exact Store.get?_eq_none_iff.mpr (htold.took server List.mem_cons_self).right

open Overlap in
theorem confirmed_server_stays_until_taken_overlap :
    (run settings moves).Reports 3 moved ⟨[server], [], []⟩ ∧ server ∈ [server] ∧
      (run settings moves).StaysUntilTaken moved server :=
  ⟨reports.right, List.mem_cons_self,
    confirmed_server_stays_until_taken settings moves reports.right List.mem_cons_self⟩

end Fleet
end ServerFleet
