import ServerFleet.Proofs.Fleet.Invariant

/-!
# Launches are exclusive

While a start is under way its record belongs to it alone: the record is there, no
stop begins and no sweep touches it.  The marker of the launch stands as long as the
start is under way and no longer.
-/

namespace ServerFleet
namespace Fleet

/-- Nobody but the start that placed a record has a hold on it. -/
structure Exclusive (w : Fleet) (placed : Server) : Prop where
  present : ∃ s, w.controller.store.get? placed.id = some s ∧ s.identity = placed.identity ∧
    ∃ stored, w.controller.store.database.loadServers = .ok stored ∧ s ∈ stored
  refused : ∀ env cause, w.controller.begin env (.stop placed.id cause) =
    (w.controller, .done (.server (.error (.launchInProgress placed.id))))
  unstopped : ∀ t order k, w.tasks t = some ⟨order, .asking (.stop k)⟩ → k.server.id ≠ placed.id
  unswept : ∀ t order sweep, w.tasks t = some ⟨order, .asking (.attach sweep)⟩ →
    (∀ call ∈ sweep.calls, call.server.id ≠ placed.id) ∧
    ∀ env replies, (w.controller.finishAttach env sweep replies).1.store.get? placed.id =
      w.controller.store.get? placed.id
  unasked : ∀ env host sweep, (w.controller.begin env (.attach host)).2 = .waiting (.attach sweep) →
    ∀ call ∈ sweep.calls, call.server.id ≠ placed.id
  found : ∀ s, s.id = placed.id → w.controller.store.replace s ≠ .ok none

/-- A commit has found its record missing. -/
def Stage.Superseded : Stage → Prop
  | .ordered => False
  | .asking (.start (.undoing u)) => u.failure = none
  | .asking _ => False
  | .ended (.server result) => ∃ id, result = .error (.superseded id)
  | .ended (.attached _ _) => False

theorem Stage.Fits.not_superseded {stage : Stage} {b : Books} (h : stage.Fits b) :
    ¬ stage.Superseded := by
  intro hsuperseded
  cases stage with
  | ordered =>
      exact hsuperseded
  | asking job =>
      cases job with
      | start work =>
          cases work with
          | launching l =>
              exact hsuperseded
          | undoing u =>
              rcases (h.right.right u rfl).right with ⟨reason, hfailure⟩
              rw [Stage.Superseded, hfailure] at hsuperseded
              cases hsuperseded
      | stop k =>
          exact hsuperseded
      | attach sweep =>
          exact hsuperseded
  | ended outcome =>
      cases outcome with
      | server result =>
          rcases hsuperseded with ⟨id, hresult⟩
          subst hresult
          exact h
      | attached host report =>
          exact hsuperseded

variable {w : Fleet}

theorem launches_iff {t : Nat} {id : ServerId} :
    w.Launches t id ↔
      ∃ order work, w.tasks t = some ⟨order, .asking (.start work)⟩ ∧ work.provisional.id = id := by
  constructor
  · intro h
    rcases h with ⟨⟨order, stage⟩, htask, hid⟩
    cases stage with
    | ordered =>
        cases hid
    | ended outcome =>
        cases hid
    | asking job =>
        cases job with
        | start work =>
            exact ⟨order, work, htask, Option.some.inj hid⟩
        | stop k =>
            cases hid
        | attach sweep =>
            cases hid
  · intro h
    rcases h with ⟨order, work, htask, hid⟩
    exact ⟨_, htask, congrArg some hid⟩

/-!
# What the others can do
-/

theorem Sound.stop_refused (h : w.Sound) {id : ServerId}
    (hid : id ∈ w.controller.store.launching) (env : Env) (cause : Cause) :
    w.controller.begin env (.stop id cause) =
      (w.controller, .done (.server (.error (.launchInProgress id)))) := by
  rcases Store.exists_get?_iff.mpr (h.books.launching id hid) with ⟨s, hs⟩
  have hget : w.controller.store.get? id = some s := hs
  have hlaunching : w.controller.store.isLaunching id = true := Store.isLaunching_iff.mpr hid
  rw [Controller.begin, Controller.beginStop, hget]
  simp only [hlaunching, if_true]
  rfl

theorem owned_of_mem_calls {sweep : Sweep} {call : AgentCall} (h : call ∈ sweep.calls) :
    call.server ∈ sweep.owned := by
  rcases List.mem_map.mp h with ⟨s, hs, rfl⟩
  exact hs

theorem Sound.unswept (h : w.Sound) {sweep : Sweep} (hfits : (Job.attach sweep).Fits w.books)
    {id : ServerId} (hid : id ∈ w.controller.store.launching) :
    (∀ call ∈ sweep.calls, call.server.id ≠ id) ∧
      ∀ env replies, (w.controller.finishAttach env sweep replies).1.store.get? id =
        w.controller.store.get? id := by
  have hothers : ∀ s ∈ sweep.owned, s.id ≠ id := by
    intro s hs hsame
    exact (hfits.right s hs).right.left (hsame ▸ hid)
  constructor
  · intro call hcall
    exact hothers call.server (owned_of_mem_calls hcall)
  · intro env replies
    rcases Controller.settleAll_sweeps env h.books _ (hfits.pairs replies) .empty with ⟨es, hsweeps, hedited⟩
    refine hedited.get?_eq h.books ?_
    intro e he
    rcases hsweeps.about e he with ⟨p, hp, hsame⟩
    rw [← hsame]
    exact hothers p.1 (List.of_mem_zip hp).left

theorem Sound.unasked (h : w.Sound) {id : ServerId} (hid : id ∈ w.controller.store.launching)
    {env : Env} {host : Host} {sweep : Sweep}
    (hbegin : (w.controller.begin env (.attach host)).2 = .waiting (.attach sweep)) :
    ∀ call ∈ sweep.calls, call.server.id ≠ id := by
  intro call hcall hsame
  have hbegins := (Controller.beginAttach_begins w.controller env w.placed host).left
  have hfits := begins_fits hbegins h.books (.nil _)
  rw [show (w.controller.beginAttach host).2.lift Job.attach (Outcome.attached host) = _ from hbegin]
    at hfits
  exact (hfits.right call.server (owned_of_mem_calls hcall)).right.left (hsame ▸ hid)

theorem Sound.exclusive (h : w.Sound) {t : Nat} {order : Order} {work : StartWork}
    (htask : w.tasks t = some ⟨order, .asking (.start work)⟩) : w.Exclusive work.provisional := by
  have hfits : (Job.start work).Fits w.books := h.fits t _ htask
  have hid : work.provisional.id ∈ w.controller.store.launching := hfits.right.left
  constructor
  case present =>
    rcases Controller.launching_record h.books hfits.left hid with ⟨s, hs, hidentity⟩
    exact ⟨s, hs, hidentity, _, h.books.store.loadServers_eq,
      Store.mem_all.mpr (Store.mem_of_get? hs).left⟩
  case refused =>
    intro env cause
    exact h.stop_refused hid env cause
  case unstopped =>
    intro t' order' k hstop hsame
    have hlanded : k.server.id ∉ w.controller.store.launching := (h.fits t' _ hstop).right
    exact hlanded (hsame ▸ hid)
  case unswept =>
    intro t' order' sweep hsweep
    exact h.unswept (h.fits t' _ hsweep) hid
  case unasked =>
    intro env host sweep hbegin
    exact h.unasked hid hbegin
  case found =>
    intro s hsame hreplace
    exact Store.replace_eq_none_iff.mp hreplace (hsame ▸ h.books.launching _ hid)

theorem Sound.launch_ends (h : w.Sound) {t : Nat} {order : Order} {work : StartWork}
    (htask : w.tasks t = some ⟨order, .asking (.start work)⟩) (env : Env) (replies : List Reply) :
    (∃ work', (w.controller.resume env (.start work) replies).2 = .waiting (.start work') ∧
      work'.provisional.id = work.provisional.id ∧
      work.provisional.id ∈ (w.controller.resume env (.start work) replies).1.store.launching) ∨
    ∃ result, (w.controller.resume env (.start work) replies).2 = .done (.server result) ∧
      work.provisional.id ∉ (w.controller.resume env (.start work) replies).1.store.launching := by
  have hfits : (Job.start work).Fits w.books := h.fits t _ htask
  rcases Controller.resumes_resume env h.books hfits replies with ⟨es, hresumes, hedited⟩
  have hlaunching := resumes_launching hresumes hfits hedited work.provisional.id
  generalize w.controller.resume env (.start work) replies = step at *
  cases step with
  | mk c p =>
      -- What remains of the lemma on launches once the start is over.
      have hover (hp : p.stage.launch? = none) : work.provisional.id ∉ c.store.launching := by
        intro hmem
        rcases hlaunching.mp hmem with hid | ⟨_, hne⟩
        · rw [hp] at hid
          cases hid
        · exact hne rfl
      cases hresumes with
      | committed _ =>
          exact Or.inr ⟨_, rfl, hover rfl⟩
      | uncommitted _ _ =>
          exact Or.inl ⟨_, rfl, rfl, hlaunching.mpr (Or.inl rfl)⟩
      | failed _ _ | failedKept _ _ | undone _ _ | undoneKept _ _ =>
          exact Or.inr ⟨_, rfl, hover rfl⟩

/-- After every run the launches in flight are those of the starts under way, each of one start only, and
every such start has its record to itself until it ends, which ends the launch.  No start comes to find
its record gone. -/
theorem launches_are_exclusive (settings : ControlSettings) (moves : List Move) :
    (∀ id, id ∈ (run settings moves).controller.store.launching ↔
      ∃ t order work, (run settings moves).tasks t = some ⟨order, .asking (.start work)⟩ ∧
        work.provisional.id = id) ∧
    (∀ t t' order order' work work',
      (run settings moves).tasks t = some ⟨order, .asking (.start work)⟩ →
      (run settings moves).tasks t' = some ⟨order', .asking (.start work')⟩ →
      work.provisional.id = work'.provisional.id → t = t') ∧
    (∀ t order work, (run settings moves).tasks t = some ⟨order, .asking (.start work)⟩ →
      (run settings moves).Exclusive work.provisional ∧
      ∀ env replies,
        let step := (run settings moves).controller.resume env (.start work) replies
        (∃ work', step.2 = .waiting (.start work') ∧ work'.provisional.id = work.provisional.id ∧
          work.provisional.id ∈ step.1.store.launching) ∨
        ∃ result, step.2 = .done (.server result) ∧
          work.provisional.id ∉ step.1.store.launching) ∧
    ∀ t task, (run settings moves).tasks t = some task → ¬ task.stage.Superseded := by
  have h := sound_run settings moves
  refine ⟨?_, ?_, ?_, ?_⟩
  · intro id
    rw [h.launching]
    simp only [launches_iff]
  · intro t t' order order' work work' htask htask' hsame
    exact h.distinct t t' work.provisional.id (launches_iff.mpr ⟨order, work, htask, rfl⟩)
      (launches_iff.mpr ⟨order', work', htask', hsame.symm⟩)
  · intro t order work htask
    exact ⟨h.exclusive htask, h.launch_ends htask⟩
  · intro t task htask
    exact (h.fits t task htask).not_superseded

end Fleet
end ServerFleet
