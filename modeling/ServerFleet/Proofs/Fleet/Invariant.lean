import ServerFleet.Proofs.Fleet.Interleaving
import ServerFleet.Proofs.Fleet.Recovery

/-!
# What every run keeps

The books are in order, every task fits them, and the launches in flight are those of
the starts under way, each of one start only.  A step of one task leaves the others
fitting: it begins no launch but of a server never placed before, and it ends no
launch but its own.
-/

namespace ServerFleet
namespace Fleet

def Stage.launch? : Stage → Option ServerId
  | .asking job => job.launch?
  | .ordered => none
  | .ended _ => none

def Stage.Fits (b : Books) : Stage → Prop
  | .ordered => True
  | .asking job => job.Fits b
  | .ended outcome => outcome.Possible

def Admits : Order → Stage → Prop
  | _, .ordered => True
  | .start _ _, .asking job => ∃ work, job = .start work
  | .start _ _, .ended outcome => ∃ result, outcome = .server result
  | .stop id cause, .asking job => ∃ k, job = .stop k ∧ k.server.id = id ∧ k.cause = cause
  | .stop id _, .ended outcome => ∃ result, outcome = .server result ∧ ∀ s, result = .ok s → s.id = id
  | .attach host, .asking job => ∃ sweep, job = .attach sweep ∧ sweep.host = host
  | .attach host, .ended outcome => ∃ report, outcome = .attached host report

def Launches (w : Fleet) (t : Nat) (id : ServerId) : Prop :=
  ∃ task, w.tasks t = some task ∧ task.stage.launch? = some id

structure Sound (w : Fleet) : Prop where
  books : w.books.Sound
  fits : ∀ t task, w.tasks t = some task → task.stage.Fits w.books
  admits : ∀ t task, w.tasks t = some task → Admits task.order task.stage
  launching : ∀ id, id ∈ w.controller.store.launching ↔ ∃ t, w.Launches t id
  distinct : ∀ t t' id, w.Launches t id → w.Launches t' id → t = t'
  bound : ∀ t, w.next ≤ t → w.tasks t = none

variable {w w' : Fleet} {b b' : Books}

/-!
# Tasks that do not move
-/

theorem Stage.Fits.keep {stage : Stage} (h : stage.Fits b)
    (hplaced : ∀ a ∈ b.placed, a ∈ b'.placed)
    (hown : ∀ id, stage.launch? = some id → id ∈ b'.store.launching)
    (hothers : ∀ a ∈ b.placed, a.id ∉ b.store.launching → a.id ∉ b'.store.launching) :
    stage.Fits b' := by
  cases stage with
  | ordered =>
      trivial
  | ended outcome =>
      exact h
  | asking job =>
      cases job with
      | start work =>
          exact ⟨hplaced _ h.left, hown _ rfl, h.right.right⟩
      | stop k =>
          exact ⟨hplaced _ h.left, hothers _ h.left h.right⟩
      | attach sweep =>
          refine ⟨h.left, ?_⟩
          intro s hs
          have hserver := h.right s hs
          exact ⟨hplaced _ hserver.left, hothers _ hserver.left hserver.right.left,
            hserver.right.right⟩

/-!
# A task that moves on
-/

/-- A task has moved on: the launches in flight have lost its old launch and gained its new one, which is
that of a new server if it is another. -/
structure Advanced (w w' : Fleet) (t : Nat) (order : Order) (old stage : Stage) : Prop where
  before : w.tasks t = some ⟨order, old⟩
  after : w'.tasks = Function.update w.tasks t (some ⟨order, stage⟩)
  next : w'.next = w.next
  placed : ∀ a ∈ w.placed, a ∈ w'.placed
  launching : ∀ id, id ∈ w'.controller.store.launching ↔
    stage.launch? = some id ∨ id ∈ w.controller.store.launching ∧ old.launch? ≠ some id
  fresh : ∀ id, stage.launch? = some id → old.launch? = some id ∨ id ∉ w.placed.map Identity.id

namespace Advanced

variable {t u v : Nat} {order : Order} {old stage : Stage} {id : ServerId}

theorem mine (ha : Advanced w w' t order old stage) : w'.tasks t = some ⟨order, stage⟩ := by
  rw [ha.after, Function.update_self]

theorem others (ha : Advanced w w' t order old stage) (hu : u ≠ t) : w'.tasks u = w.tasks u := by
  rw [ha.after, Function.update_of_ne hu]

theorem launches_mine (ha : Advanced w w' t order old stage) :
    w'.Launches t id ↔ stage.launch? = some id := by
  rw [Launches, ha.mine]
  simp

theorem launches_others (ha : Advanced w w' t order old stage) (hu : u ≠ t) :
    w'.Launches u id ↔ w.Launches u id := by
  rw [Launches, Launches, ha.others hu]

theorem old_ne (ha : Advanced w w' t order old stage) (h : w.Sound) (hu : u ≠ t)
    (hother : w.Launches u id) : old.launch? ≠ some id := by
  intro hid
  exact hu (h.distinct u t id hother ⟨_, ha.before, hid⟩)

/-- The new launch is nobody else's: its server was never placed before. -/
theorem stage_ne (ha : Advanced w w' t order old stage) (h : w.Sound) (hu : u ≠ t)
    (hother : w.Launches u id) : stage.launch? ≠ some id := by
  intro hid
  rcases ha.fresh id hid with hold | hnew
  · exact ha.old_ne h hu hother hold
  · have hmem := (h.launching id).mpr ⟨u, hother⟩
    exact hnew (h.books.placed_of_ids (h.books.launching id hmem))

theorem landed (ha : Advanced w w' t order old stage) (h : w.Sound) {a : Identity} (hplaced : a ∈ w.placed)
    (hlanded : a.id ∉ w.controller.store.launching) : a.id ∉ w'.controller.store.launching := by
  intro hmem
  rcases (ha.launching a.id).mp hmem with hid | hold
  · rcases ha.fresh a.id hid with hold | hnew
    · exact hlanded ((h.launching a.id).mpr ⟨t, _, ha.before, hold⟩)
    · exact hnew (List.mem_map.mpr ⟨a, hplaced, rfl⟩)
  · exact hlanded hold.left

theorem fits (ha : Advanced w w' t order old stage) (h : w.Sound) (hu : u ≠ t) {task : Task}
    (htask : w.tasks u = some task) : task.stage.Fits w'.books := by
  refine (h.fits u task htask).keep ha.placed ?_ ?_
  · intro id hid
    have hother : w.Launches u id := ⟨task, htask, hid⟩
    exact (ha.launching id).mpr (Or.inr ⟨(h.launching id).mpr ⟨u, hother⟩, ha.old_ne h hu hother⟩)
  · intro a haplaced hlanded
    exact ha.landed h haplaced hlanded

theorem launching_iff (ha : Advanced w w' t order old stage) (h : w.Sound) (id : ServerId) :
    id ∈ w'.controller.store.launching ↔ ∃ u, w'.Launches u id := by
  rw [ha.launching, h.launching]
  constructor
  · intro hid
    rcases hid with hid | ⟨⟨u, hu⟩, hne⟩
    · exact ⟨t, ha.launches_mine.mpr hid⟩
    · have hut : u ≠ t := by
        intro hut
        rcases hu with ⟨task, htask, hid⟩
        rw [hut, ha.before] at htask
        cases htask
        exact hne hid
      exact ⟨u, (ha.launches_others hut).mpr hu⟩
  · intro hid
    rcases hid with ⟨u, hu⟩
    by_cases hut : u = t
    · subst hut
      exact Or.inl (ha.launches_mine.mp hu)
    · have hother := (ha.launches_others hut).mp hu
      exact Or.inr ⟨⟨u, hother⟩, ha.old_ne h hut hother⟩

theorem distinct (ha : Advanced w w' t order old stage) (h : w.Sound) (hu : w'.Launches u id)
    (hv : w'.Launches v id) : u = v := by
  by_cases hut : u = t
  · subst hut
    by_cases hvt : v = u
    · exact hvt.symm
    · exact absurd (ha.launches_mine.mp hu) (ha.stage_ne h hvt ((ha.launches_others hvt).mp hv))
  · have hother := (ha.launches_others hut).mp hu
    by_cases hvt : v = t
    · subst hvt
      exact absurd (ha.launches_mine.mp hv) (ha.stage_ne h hut hother)
    · exact h.distinct u v id hother ((ha.launches_others hvt).mp hv)

theorem bound (ha : Advanced w w' t order old stage) (h : w.Sound) (hu : w'.next ≤ u) :
    w'.tasks u = none := by
  have hnone := h.bound u (ha.next ▸ hu)
  have hut : u ≠ t := by
    intro hut
    rw [hut, ha.before] at hnone
    cases hnone
  rw [ha.others hut]
  exact hnone

end Advanced

theorem Sound.advanced (h : w.Sound) {t : Nat} {order : Order} {old stage : Stage}
    (ha : Advanced w w' t order old stage) (hbooks : w'.books.Sound) (hfits : stage.Fits w'.books)
    (hadmits : Admits order stage) : w'.Sound := by
  constructor
  case books =>
    exact hbooks
  case fits =>
    intro u task htask
    by_cases hu : u = t
    · rw [hu, ha.mine] at htask
      cases htask
      exact hfits
    · exact ha.fits h hu (ha.others hu ▸ htask)
  case admits =>
    intro u task htask
    by_cases hu : u = t
    · rw [hu, ha.mine] at htask
      cases htask
      exact hadmits
    · exact h.admits u task (ha.others hu ▸ htask)
  case launching =>
    exact ha.launching_iff h
  case distinct =>
    intro u v id
    exact ha.distinct h
  case bound =>
    intro u
    exact ha.bound h

/-!
# Orders that begin
-/

theorem begins_launching {c : Controller} {env : Env} {order : Order} {es : List Edit}
    {p : Progress Job Outcome} (h : c.Begins env order es p) {placed : List Identity}
    (hes : (c.books placed).Edited env.now es b') (id : ServerId) :
    id ∈ b'.store.launching ↔ p.stage.launch? = some id ∨ id ∈ c.store.launching := by
  cases h with
  | placed hgroup hhost hnumber =>
      rw [(Books.edited_single_iff.mp hes).right, Books.mem_launching_edit]
      simp [Edit.begun?, Edit.ended?, Progress.stage, Stage.launch?, Job.launch?,
        StartWork.provisional, Controller.books]
  | startRefused _ | stopRefused _ | stopping _ _ _ | attached | sweeping =>
      rw [Books.edited_nil_iff.mp hes]
      simp [Progress.stage, Stage.launch?, Job.launch?, Controller.books]

theorem begins_fresh {c : Controller} {env : Env} {order : Order} {es : List Edit}
    {p : Progress Job Outcome} (h : c.Begins env order es p) {id : ServerId}
    (hid : p.stage.launch? = some id) : id = env.serverId := by
  cases h with
  | placed hgroup hhost hnumber =>
      cases hid
      rfl
  | startRefused _ | stopRefused _ | stopping _ _ _ | attached | sweeping =>
      cases hid

theorem begins_fits {c : Controller} {env : Env} {order : Order} {es : List Edit}
    {p : Progress Job Outcome} (h : c.Begins env order es p) {placed : List Identity}
    (hsound : (c.books placed).Sound) (hes : (c.books placed).Edited env.now es b') :
    p.stage.Fits b' := by
  cases h with
  | placed hgroup hhost hnumber =>
      have hb := (Books.edited_single_iff.mp hes).right
      refine ⟨?_, ?_, ?_⟩
      · rw [hb]
        exact List.mem_cons_self
      · rw [hb]
        exact List.mem_cons_self
      · intro u hu
        cases hu
  | startRefused he =>
      exact he
  | stopRefused he =>
      exact he
  | stopping hs hlanded hhost =>
      rw [Books.edited_nil_iff.mp hes]
      exact ⟨hsound.placed _ hs, hlanded⟩
  | attached =>
      intro entry hentry
      cases hentry
  | @sweeping host =>
      rw [Books.edited_nil_iff.mp hes]
      constructor
      · have hsub : (c.store.byHost host.id).Perm (c.store.index.filter fun s => s.hostId = host.id) :=
          List.mergeSort_perm _ _
        have hnodup := (hsub.map Server.id).nodup_iff.mpr
          (hsound.store.nodup.sublist (List.filter_sublist.map Server.id))
        exact hnodup.sublist (List.filter_sublist.map Server.id)
      · intro s hs
        rcases List.mem_filter.mp hs with ⟨hs, hlanded⟩
        have hhost := Store.mem_byHost.mp hs
        refine ⟨hsound.placed s hhost.left, ?_, hhost.right⟩
        intro hmem
        rw [Bool.not_eq_true', ← Bool.not_eq_true, Store.isLaunching_iff] at hlanded
        exact hlanded hmem

theorem begins_admits {c : Controller} {env : Env} {order : Order} {es : List Edit}
    {p : Progress Job Outcome} (h : c.Begins env order es p) : Admits order p.stage := by
  cases h with
  | placed _ _ _ =>
      exact ⟨_, rfl⟩
  | startRefused _ =>
      exact ⟨_, rfl⟩
  | stopRefused _ =>
      refine ⟨_, rfl, ?_⟩
      intro s hs
      cases hs
  | stopping _ _ _ =>
      exact ⟨_, rfl, rfl, rfl⟩
  | attached =>
      exact ⟨_, rfl⟩
  | sweeping =>
      exact ⟨_, rfl, rfl⟩

theorem advanced_begin {t : Nat} {order : Order} {env : Env} {es : List Edit}
    (hold : w.tasks t = some ⟨order, .ordered⟩) (hfresh : env.serverId ∉ w.placed.map Identity.id)
    (hbegins : w.controller.Begins env order es (w.controller.begin env order).2)
    (hedited : w.books.Edited env.now es (w.advance t order (w.controller.begin env order)).books) :
    Advanced w (w.advance t order (w.controller.begin env order)) t order .ordered
      (w.controller.begin env order).2.stage where
  before := hold
  after := rfl
  next := rfl
  placed := by
    intro a ha
    exact List.mem_append_right _ ha
  launching := by
    intro id
    have hlaunching := begins_launching hbegins hedited id
    rw [show id ∈ (w.advance t order (w.controller.begin env order)).controller.store.launching ↔ _
      from hlaunching]
    simp [Stage.launch?]
  fresh := by
    intro id hid
    rw [begins_fresh hbegins hid]
    exact Or.inr hfresh

theorem Sound.begin (h : w.Sound) {t : Nat} {order : Order} {env : Env}
    (hold : w.tasks t = some ⟨order, .ordered⟩) (hfresh : env.serverId ∉ w.placed.map Identity.id) :
    (w.advance t order (w.controller.begin env order)).Sound := by
  rcases Controller.begins_begin h.books hfresh order with ⟨es, hbegins, hedited⟩
  exact h.advanced (advanced_begin hold hfresh hbegins hedited) (hedited.sound h.books)
    (begins_fits hbegins h.books hedited) (begins_admits hbegins)

/-!
# Jobs that go on
-/

theorem launching_of_ended {e : Edit} {now : Time.Instant} (hes : b.Edited now [e] b')
    {ended : ServerId} (hbegun : e.begun? = none) (hended : e.ended? = some ended) (id : ServerId) :
    id ∈ b'.store.launching ↔ id ∈ b.store.launching ∧ some ended ≠ some id := by
  rw [(Books.edited_single_iff.mp hes).right, Books.mem_launching_edit, hbegun, hended]
  simp

theorem resumes_launching {c : Controller} {env : Env} {job : Job} {replies : List Reply}
    {es : List Edit} {p : Progress Job Outcome} (h : c.Resumes env job replies es p)
    {placed : List Identity} (hjob : job.Fits (c.books placed))
    (hes : (c.books placed).Edited env.now es b') (id : ServerId) :
    id ∈ b'.store.launching ↔
      p.stage.launch? = some id ∨ id ∈ c.store.launching ∧ job.launch? ≠ some id := by
  -- A job that is over keeps no launch in flight; it remains to see which launch it ended.
  have hover {P : Prop} : P ↔ (none : Option ServerId) = some id ∨ P := by
    simp
  cases h with
  | committed hmerged =>
      rw [launching_of_ended hes rfl rfl, Server.id_of_identity (Server.identity_of_bind hmerged)]
      exact hover
  | failed _ hidentity =>
      rw [launching_of_ended hes rfl rfl, Server.id_of_identity hidentity]
      exact hover
  | failedKept _ _ =>
      rw [launching_of_ended hes rfl rfl]
      exact hover
  | undone _ hidentity =>
      rw [launching_of_ended hes rfl rfl, Server.id_of_identity hidentity]
      exact hover
  | undoneKept _ _ =>
      rw [launching_of_ended hes rfl rfl]
      exact hover
  | @uncommitted l m replies reason _ _ =>
      rw [Books.edited_nil_iff.mp hes]
      show id ∈ c.store.launching ↔
        some l.provisional.id = some id ∨ id ∈ c.store.launching ∧ some l.provisional.id ≠ some id
      constructor
      · intro hid
        by_cases hsame : l.provisional.id = id
        · exact Or.inl (congrArg some hsame)
        · exact Or.inr ⟨hid, fun heq => hsame (Option.some.inj heq)⟩
      · intro hid
        rcases hid with hid | hid
        · rw [← Option.some.inj hid]
          exact hjob.right.left
        · exact hid.left
  | stopFailed _ =>
      rw [Books.edited_nil_iff.mp hes]
      simp [Progress.stage, Stage.launch?, Job.launch?, Controller.books]
  | stopped _ _ =>
      rw [(Books.edited_single_iff.mp hes).right, Books.mem_launching_edit]
      simp [Progress.stage, Stage.launch?, Job.launch?, Edit.begun?, Edit.ended?, Controller.books]
  | swept hsweeps =>
      rw [hes.mem_launching hsweeps.quiet]
      simp [Progress.stage, Stage.launch?, Job.launch?, Controller.books]

theorem resumes_keeps {c : Controller} {env : Env} {job : Job} {replies : List Reply}
    {es : List Edit} {p : Progress Job Outcome} (h : c.Resumes env job replies es p)
    {id : ServerId} (hid : p.stage.launch? = some id) : job.launch? = some id := by
  cases h with
  | uncommitted _ _ =>
      exact hid
  | committed _ | failed _ _ | failedKept _ _ | undone _ _ | undoneKept _ _ | stopFailed _
  | stopped _ _ | swept _ =>
      cases hid

theorem resumes_fits {c : Controller} {env : Env} {job : Job} {replies : List Reply}
    {es : List Edit} {p : Progress Job Outcome} (h : c.Resumes env job replies es p)
    {placed : List Identity} (hjob : job.Fits (c.books placed))
    (hes : (c.books placed).Edited env.now es b') : p.stage.Fits b' := by
  cases h with
  | uncommitted hmerged _ =>
      rw [Books.edited_nil_iff.mp hes]
      refine ⟨hjob.left, hjob.right.left, ?_⟩
      intro u hu
      cases hu
      exact ⟨Server.identity_of_bind hmerged, _, rfl⟩
  | stopFailed he =>
      exact he
  | swept hsweeps =>
      apply hsweeps.refused
      intro entry hentry
      cases hentry
  | committed _ | failed _ _ | failedKept _ _ | undone _ _ | undoneKept _ _ | stopped _ _ =>
      trivial

theorem resumes_admits {c : Controller} {env : Env} {job : Job} {replies : List Reply}
    {es : List Edit} {p : Progress Job Outcome} (h : c.Resumes env job replies es p) {order : Order}
    (hadmits : Admits order (.asking job)) : Admits order p.stage := by
  cases order with
  | start group cause =>
      rcases hadmits with ⟨work, hjob⟩
      cases h with
      | swept _ =>
          cases hjob
      | uncommitted _ _ =>
          exact ⟨_, rfl⟩
      | committed _ | failed _ _ | failedKept _ _ | undone _ _ | undoneKept _ _ | stopFailed _
      | stopped _ _ =>
          exact ⟨_, rfl⟩
  | stop id cause =>
      rcases hadmits with ⟨k, hjob, hid, _⟩
      cases h with
      | stopFailed _ =>
          refine ⟨_, rfl, ?_⟩
          intro s hs
          cases hs
      | stopped _ hr =>
          cases hjob
          refine ⟨_, rfl, ?_⟩
          intro s hs
          cases hs
          exact hr.trans hid
      | committed _ | uncommitted _ _ | failed _ _ | failedKept _ _ | undone _ _ | undoneKept _ _
      | swept _ =>
          cases hjob
  | attach host =>
      rcases hadmits with ⟨sweep, hjob, hhost⟩
      cases h with
      | swept _ =>
          cases hjob
          exact ⟨_, by rw [hhost]⟩
      | committed _ | uncommitted _ _ | failed _ _ | failedKept _ _ | undone _ _ | undoneKept _ _
      | stopFailed _ | stopped _ _ =>
          cases hjob

theorem resumes_placed {c : Controller} {env : Env} {job : Job} {replies : List Reply}
    {es : List Edit} {p : Progress Job Outcome} (h : c.Resumes env job replies es p) :
    p.placed = [] := by
  cases h <;> rfl

theorem placed_resume (t : Nat) (order : Order) {job : Job} {env : Env} {replies : List Reply}
    {es : List Edit}
    (hresumes : w.controller.Resumes env job replies es (w.controller.resume env job replies).2) :
    (w.advance t order (w.controller.resume env job replies)).placed = w.placed := by
  rw [advance, resumes_placed hresumes, List.nil_append]

theorem books_resume (t : Nat) (order : Order) {job : Job} {env : Env} {replies : List Reply}
    {es : List Edit}
    (hresumes : w.controller.Resumes env job replies es (w.controller.resume env job replies).2) :
    (w.advance t order (w.controller.resume env job replies)).books =
      (w.controller.resume env job replies).1.books w.placed := by
  rw [Fleet.books, placed_resume t order hresumes, advance]

theorem advanced_resume {t : Nat} {order : Order} {job : Job} {env : Env} {replies : List Reply}
    {es : List Edit} (hold : w.tasks t = some ⟨order, .asking job⟩) (hjob : job.Fits w.books)
    (hresumes : w.controller.Resumes env job replies es (w.controller.resume env job replies).2)
    (hedited : w.books.Edited env.now es
      ((w.controller.resume env job replies).1.books w.placed)) :
    Advanced w (w.advance t order (w.controller.resume env job replies)) t order (.asking job)
      (w.controller.resume env job replies).2.stage where
  before := hold
  after := rfl
  next := rfl
  placed := by
    intro a ha
    rw [placed_resume t order hresumes]
    exact ha
  launching := resumes_launching hresumes hjob hedited
  fresh := by
    intro id hid
    exact Or.inl (resumes_keeps hresumes hid)

theorem Sound.resume (h : w.Sound) {t : Nat} {order : Order} {job : Job} {env : Env}
    (hold : w.tasks t = some ⟨order, .asking job⟩) (replies : List Reply) :
    (w.advance t order (w.controller.resume env job replies)).Sound := by
  have hjob : job.Fits w.books := h.fits t _ hold
  rcases Controller.resumes_resume env h.books hjob replies with ⟨es, hresumes, hedited⟩
  apply h.advanced (advanced_resume hold hjob hresumes hedited)
  · rw [books_resume t order hresumes]
    exact hedited.sound h.books
  · rw [books_resume t order hresumes]
    exact resumes_fits hresumes hjob hedited
  · exact resumes_admits hresumes (h.admits t _ hold)

/-!
# The other moves
-/

theorem tasks_spawn (w : Fleet) (order : Order) :
    (w.spawn order).tasks = Function.update w.tasks w.next (some ⟨order, .ordered⟩) :=
  rfl

theorem Sound.spawn (h : w.Sound) (order : Order) : (w.spawn order).Sound := by
  have hfree : w.tasks w.next = none := h.bound w.next (Nat.le_refl _)
  have hlaunches (t : Nat) (id : ServerId) : (w.spawn order).Launches t id ↔ w.Launches t id := by
    by_cases ht : t = w.next
    · simp [Launches, Fleet.spawn, ht, hfree, Stage.launch?]
    · simp [Launches, Fleet.spawn, ht]
  constructor
  case books =>
    exact h.books
  case fits =>
    intro t task htask
    by_cases ht : t = w.next
    · rw [ht, tasks_spawn, Function.update_self] at htask
      cases htask
      trivial
    · rw [tasks_spawn, Function.update_of_ne ht] at htask
      exact h.fits t task htask
  case admits =>
    intro t task htask
    by_cases ht : t = w.next
    · rw [ht, tasks_spawn, Function.update_self] at htask
      cases htask
      cases order <;> trivial
    · rw [tasks_spawn, Function.update_of_ne ht] at htask
      exact h.admits t task htask
  case launching =>
    intro id
    show id ∈ w.controller.store.launching ↔ _
    simp only [h.launching, hlaunches]
  case distinct =>
    intro t t' id ht ht'
    exact h.distinct t t' id ((hlaunches t id).mp ht) ((hlaunches t' id).mp ht')
  case bound =>
    intro t ht
    have hlt : w.next < t := ht
    rw [tasks_spawn, Function.update_of_ne (Nat.ne_of_gt hlt)]
    exact h.bound t (Nat.le_of_lt hlt)

/-- Passes do not count: only their orders do. -/
theorem Sound.withPasses (h : w.Sound) (passes : Nat → Option PassStage) :
    ({ w with passes } : Fleet).Sound where
  books := h.books
  fits := h.fits
  admits := h.admits
  launching := h.launching
  distinct := h.distinct
  bound := h.bound

theorem Sound.advancePass (h : w.Sound) (p : Nat) (progress : Progress Pass PassStats) :
    (w.advancePass p progress).Sound := by
  cases progress with
  | done stats =>
      exact h.withPasses _
  | waiting pass =>
      exact (h.spawn pass.order).withPasses _

theorem Sound.go (h : w.Sound) (t : Nat) (env : Env) (replies : List Reply) :
    (w.go t env replies).Sound := by
  rw [Fleet.go]
  split
  next =>
    exact h
  next =>
    exact h
  next order hold =>
    split
    next =>
      exact h
    next hfresh =>
      exact h.begin hold hfresh
  next order job hold =>
    split
    next =>
      exact h.resume hold replies
    next =>
      exact h

theorem Sound.goPass (h : w.Sound) (p : Nat) : (w.goPass p).Sound := by
  rw [Fleet.goPass]
  split
  next =>
    exact h
  next =>
    exact h
  next =>
    split
    next =>
      exact h.withPasses _
    next =>
      exact h.advancePass p _
  next =>
    split
    next =>
      exact h.advancePass p _
    next =>
      exact h

theorem Sound.withController (h : w.Sound) {controller : Controller}
    (hbooks : (controller.books w.placed).Sound)
    (hlaunching : controller.store.launching = w.controller.store.launching) :
    ({ w with controller } : Fleet).Sound := by
  constructor
  case books =>
    exact hbooks
  case fits =>
    intro t task htask
    refine (h.fits t task htask).keep (fun a ha => ha) ?_ ?_
    · intro id hid
      show id ∈ controller.store.launching
      rw [hlaunching, h.launching]
      exact ⟨t, task, htask, hid⟩
    · intro a _ hlanded hmem
      have hold : a.id ∈ w.controller.store.launching := hlaunching ▸ hmem
      exact hlanded hold
  case admits =>
    exact h.admits
  case launching =>
    intro id
    show id ∈ controller.store.launching ↔ _
    rw [hlaunching]
    exact h.launching id
  case distinct =>
    exact h.distinct
  case bound =>
    exact h.bound

theorem Sound.update (h : w.Sound) (env : Env) (id : ServerId) {change : Server → Server}
    (hchange : ∀ s, (change s).identity = s.identity) :
    ({ w with controller := (w.controller.update env id change).1 } : Fleet).Sound := by
  rcases Controller.update_cases env h.books id hchange with
    ⟨e, hupdate, _⟩ | ⟨before, after, c', hupdate, _, hfits, hbooks⟩
  · rw [hupdate]
    exact h
  · rw [hupdate]
    apply h.withController
    · rw [hbooks]
      exact h.books.edit env.now hfits
    · exact congrArg (fun b => b.store.launching) hbooks

theorem Sound.weather (h : w.Sound) (groups : List GroupRow) (hasGroups : Bool)
    (refusal : Statement → Option String) : (w.weather groups hasGroups refusal).Sound := by
  apply h.withController
  · exact
      { store := ⟨h.books.store.table, h.books.store.rows, h.books.store.nodup, h.books.store.places⟩
        tidy := h.books.tidy
        taken := h.books.taken
        placed := h.books.placed
        unique := h.books.unique
        launching := h.books.launching }
  · rfl

theorem Sound.restart_eq (h : w.Sound) (settings : ControlSettings) :
    w.restart settings =
      { w with
        controller := Controller.recovered settings w.controller.store
        tasks := fun _ => none
        passes := fun _ => none } := by
  rw [Fleet.restart, Controller.assemble_eq h.books]

theorem Sound.restart (h : w.Sound) (settings : ControlSettings) : (w.restart settings).Sound := by
  rw [h.restart_eq]
  constructor
  case books =>
    exact Controller.sound_recovered h.books settings
  case fits =>
    intro t task htask
    cases htask
  case admits =>
    intro t task htask
    cases htask
  case launching =>
    intro id
    constructor
    · intro hid
      cases hid
    · intro hid
      rcases hid with ⟨t, task, htask, _⟩
      cases htask
  case distinct =>
    intro t t' id ht
    rcases ht with ⟨task, htask, _⟩
    cases htask
  case bound =>
    intro t _
    rfl

theorem Sound.step (h : w.Sound) (move : Move) : (w.step move).Sound := by
  cases move with
  | order order =>
      exact h.spawn order
  | stopNumber group number cause =>
      rw [Fleet.step]
      split
      next =>
        exact h
      next s _ =>
        exact h.spawn _
  | orderPass =>
      exact
        { books := h.books
          fits := h.fits
          admits := h.admits
          launching := h.launching
          distinct := h.distinct
          bound := fun t ht => h.bound t (Nat.le_of_succ_le ht) }
  | go t env replies =>
      exact h.go t env replies
  | goPass p =>
      exact h.goPass p
  | setState env id state =>
      exact h.update env id fun _ => rfl
  | setProperty env id key value =>
      exact h.update env id fun _ => rfl
  | weather groups hasGroups refusal =>
      exact h.weather groups hasGroups refusal
  | restart settings =>
      exact h.restart settings

/-!
# Runs
-/

theorem sound_fresh (settings : ControlSettings) : (fresh settings).Sound where
  books :=
    { store := Store.consistent_empty rfl rfl
      tidy := .empty
      taken := by
        intro p
        constructor
        · intro hp
          cases hp
        · intro hp
          rcases hp with ⟨s, hs, _⟩
          cases hs
      placed := by
        intro s hs
        cases hs
      unique := List.nodup_nil
      launching := by
        intro id hid
        cases hid }
  fits := by
    intro t task htask
    cases htask
  admits := by
    intro t task htask
    cases htask
  launching := by
    intro id
    constructor
    · intro hid
      cases hid
    · intro hid
      rcases hid with ⟨t, task, htask, _⟩
      cases htask
  distinct := by
    intro t t' id ht
    rcases ht with ⟨task, htask, _⟩
    cases htask
  bound := by
    intro t _
    rfl

/-- What holds of a fresh fleet and is kept by every move of a fleet in order holds after every run. -/
theorem run_induction {P : Fleet → Prop} (settings : ControlSettings) (hfresh : P (fresh settings))
    (hstep : ∀ w move, w.Sound → P w → P (w.step move)) (moves : List Move) :
    (run settings moves).Sound ∧ P (run settings moves) := by
  have hfrom (w : Fleet) (hw : w.Sound ∧ P w) :
      (moves.foldl Fleet.step w).Sound ∧ P (moves.foldl Fleet.step w) := by
    induction moves generalizing w with
    | nil =>
        exact hw
    | cons move rest ih =>
        exact ih _ ⟨hw.left.step move, hstep w move hw.left hw.right⟩
  exact hfrom _ ⟨sound_fresh settings, hfresh⟩

theorem sound_run (settings : ControlSettings) (moves : List Move) : (run settings moves).Sound :=
  (run_induction (P := fun _ => True) settings trivial (fun _ _ _ _ => trivial) moves).left

end Fleet
end ServerFleet
