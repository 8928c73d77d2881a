import ServerFleet.Proofs.Fleet.Confirmations
import ServerFleet.Proofs.Fleet.ForeignAnswers

/-!
# Stops by number

A server can be stopped under its group and number.  The number is looked up once, when the stop is
requested, and from then on the stop is about the server that had it.  A number is given out again as
soon as it is free, so that another server may have it by the time the host answers.  That server is
left alone: the stop goes by the identifier, which is never used again.
-/

namespace ServerFleet

namespace Controller

variable {c c' : Controller} {id : ServerId}

theorem TouchesOnly.refl (c : Controller) (id : ServerId) : c.TouchesOnly c id where
  record := fun _ _ => rfl
  unplaced := fun h => h
  untaken := fun _ _ h => h
  freed := by
    intro group number hheld hfree
    rw [hheld] at hfree
    cases hfree

theorem TouchesOnly.byNumber?_eq (htouches : c.TouchesOnly c' id) (h : c.store.Consistent)
    (h' : c'.store.Consistent) {group : String} {number : Nat} {r : Server}
    (hr : c.store.byNumber? group number = some r) (hother : r.id ≠ id) :
    c'.store.get? r.id = some r ∧ c'.store.byNumber? group number = some r := by
  rcases h.byNumber?_eq_some_iff.mp hr with ⟨hgroup, hnumber⟩
  rcases Store.mem_byGroup.mp hgroup with ⟨hstored, hgroup⟩
  have hkept : c'.store.get? r.id = some r := by
    rw [htouches.record r.id hother]
    exact h.get?_eq_some_iff.mpr ⟨hstored, rfl⟩
  have hmem := (h'.get?_eq_some_iff.mp hkept).left
  exact ⟨hkept, h'.byNumber?_eq_some_iff.mpr ⟨Store.mem_byGroup.mpr ⟨hmem, hgroup⟩, hnumber⟩⟩

theorem serverByNumber_eq_ok_iff (h : c.store.Consistent) {group : String} {number : Nat} {s : Server} :
    c.serverByNumber group number = .ok s ↔
      c.store.get? s.id = some s ∧ s.group = group ∧ s.number.toNat = number := by
  have hlookup : c.serverByNumber group number = .ok s ↔ c.store.byNumber? group number = some s := by
    rw [serverByNumber]
    cases c.store.byNumber? group number <;> simp
  rw [hlookup, h.byNumber?_eq_some_iff, Store.mem_byGroup, h.get?_eq_some_iff, and_assoc]
  simp

theorem serverByNumber_eq_error (h : c.store.Consistent) {group : String} {number : Nat}
    (hfree : ∀ s, c.store.get? s.id = some s → s.group = group → s.number.toNat ≠ number) :
    c.serverByNumber group number = .error (.numberNotFound group number) := by
  cases hfound : c.serverByNumber group number with
  | ok s =>
      rcases (serverByNumber_eq_ok_iff h).mp hfound with ⟨hs, hgroup, hnumber⟩
      exact absurd hnumber (hfree s hs hgroup)
  | error e =>
      rw [serverByNumber] at hfound
      split at hfound
      next =>
        cases hfound
      next =>
        exact hfound.symm

end Controller

namespace Fleet

variable {w : Fleet} {t : Nat} {s : Server} {cause : Cause} {calls : List AgentCall} {order : Order}
  {k : Stopping}

/-!
# One stop
-/

/-- Nothing is called but, perhaps, the termination of one server, and that once. -/
def TerminatesOnce (calls : List AgentCall) (s : Server) : Prop :=
  calls = [] ∨ ∃ host asked, asked.identity = s.identity ∧ calls = [.terminate host asked]

/-- A task, unless it is forgotten, stops a server that has been placed, and these are its calls. -/
structure Pursues (w : Fleet) (t : Nat) (s : Server) (cause : Cause) (calls : List AgentCall) : Prop where
  issued : t < w.next
  placed : s.identity ∈ w.placed
  order : ∀ task, w.tasks t = some task → task.order = .stop s.id cause
  ordered : ∀ order, w.tasks t = some ⟨order, .ordered⟩ → calls = []
  calls : TerminatesOnce calls s

theorem Sound.begin_stop (h : w.Sound) (hplaced : s.identity ∈ w.placed) (env : Env) :
    (w.controller.begin env (.stop s.id cause)).1 = w.controller ∧
      TerminatesOnce (w.controller.begin env (.stop s.id cause)).2.calls s := by
  refine ⟨rfl, ?_⟩
  show TerminatesOnce ((w.controller.beginStop s.id cause).lift Job.stop Outcome.server).calls s
  have hbegins := w.controller.beginStop_begins env s.id cause
  generalize hid : s.id = id at hbegins ⊢
  generalize (w.controller.beginStop id cause).lift Job.stop Outcome.server = p at hbegins ⊢
  cases hbegins with
  | stopRefused _ =>
      exact Or.inl rfl
  | @stopping asked host _ hasked _ _ =>
      have hidentity := h.books.identity_eq (h.books.placed asked hasked) hplaced hid.symm
      exact Or.inr ⟨host, asked, hidentity, rfl⟩

theorem Pursues.eq_stop (hpursues : w.Pursues t s cause calls) (h : w.Sound) {job : Job}
    (htask : w.tasks t = some ⟨order, .asking job⟩) :
    order = .stop s.id cause ∧ ∃ k, job = .stop k ∧ k.server.id = s.id := by
  have horder : order = .stop s.id cause := hpursues.order _ htask
  subst horder
  rcases h.admits t _ htask with ⟨k, hjob, hid, _⟩
  exact ⟨rfl, k, hjob, hid⟩

theorem Pursues.step (hpursues : w.Pursues t s cause calls) (h : w.Sound) (move : Move) :
    (w.step move).Pursues t s cause (calls ++ w.sends t (.move move)) := by
  have hissued : t < (w.step move).next := Nat.lt_of_lt_of_le hpursues.issued (w.next_undergo (.move move))
  have hplaced : s.identity ∈ (w.step move).placed := by
    rcases h.goes move with ⟨now, es, hgoes⟩
    exact hgoes.mem_placed hpursues.placed
  cases hstep : w.stepOf? t (.move move) with
  | none =>
      have hkept {task : Task} (htask : (w.step move).tasks t = some task) : w.tasks t = some task :=
        tasks_undergo_of_issued hstep hpursues.issued htask
      rw [(traces_of_none hstep).left, List.append_nil]
      exact ⟨hissued, hplaced, fun task htask => hpursues.order task (hkept htask),
        fun order htask => hpursues.ordered order (hkept htask), hpursues.calls⟩
  | some found =>
      rcases found with ⟨order, c, p⟩
      have hmine : (w.step move).tasks t = some ⟨order, p.stage⟩ := by
        rw [show w.step move = w.advance t order (c, p) from undergo_of_stepOf? hstep, tasks_advance,
          Function.update_self]
      have hmade : order = .stop s.id cause ∧ TerminatesOnce (calls ++ p.calls) s := by
        rcases stepOf?_eq_some hstep with ⟨env, replies, _, ⟨hold, _, hbegin⟩ | ⟨job, hold, hresume⟩⟩
        · have horder : order = .stop s.id cause := hpursues.order _ hold
          have hcalls : TerminatesOnce (w.controller.begin env (.stop s.id cause)).2.calls s :=
            (h.begin_stop hpursues.placed env).right
          rw [← horder, hbegin] at hcalls
          rw [hpursues.ordered order hold]
          exact ⟨horder, hcalls⟩
        · rcases hpursues.eq_stop h hold with ⟨horder, k, rfl, _⟩
          have hp : (w.controller.resume env (.stop k) replies).2 = p := congrArg Prod.snd hresume
          have hdone : p.calls = [] := by
            rw [← hp]
            rfl
          rw [hdone, List.append_nil]
          exact ⟨horder, hpursues.calls⟩
      rw [(traces_of_some hstep).left]
      constructor
      case issued =>
        exact hissued
      case placed =>
        exact hplaced
      case order =>
        intro task htask
        rw [hmine] at htask
        rw [← Option.some.inj htask]
        exact hmade.left
      case ordered =>
        intro order' htask
        rw [hmine] at htask
        exact absurd (congrArg Task.stage (Option.some.inj htask)) (stage_ne_ordered p)
      case calls =>
        exact hmade.right

theorem Pursues.touchesOnly (hpursues : w.Pursues t s cause calls) (h : w.Sound) (env : Env)
    (replies : List Reply) :
    w.controller.TouchesOnly (w.step (.go t env replies)).controller s.id := by
  have hstep : w.step (.go t env replies) = w.go t env replies := rfl
  rw [hstep, go_eq]
  cases hturn : w.turn? t env replies with
  | none =>
      exact .refl _ _
  | some found =>
      rcases found with ⟨order, c, p⟩
      have hmade : w.stepOf? t (.move (.go t env replies)) = some (order, c, p) := by
        rw [stepOf?, if_pos rfl, hturn]
      show w.controller.TouchesOnly c s.id
      rcases stepOf?_eq_some hmade with ⟨env', replies', _, ⟨hold, _, hbegin⟩ | ⟨job, hold, hresume⟩⟩
      · have horder : order = .stop s.id cause := hpursues.order _ hold
        have hsame : c = w.controller := by
          rw [horder] at hbegin
          exact (congrArg Prod.fst hbegin).symm
        rw [hsame]
        exact .refl _ _
      · rcases hpursues.eq_stop h hold with ⟨_, k, rfl, hid⟩
        have hc : (w.controller.resume env' (.stop k) replies').1 = c := congrArg Prod.fst hresume
        have hfits : (Job.stop k).Fits w.books := h.fits t _ hold
        rw [← hid, ← hc]
        exact Controller.resume_touchesOnly env' h.books hfits rfl replies'

theorem Pursues.keeps_other (hpursues : w.Pursues t s cause calls) (h : w.Sound) (env : Env)
    (replies : List Reply) {group : String} {number : Nat} {r : Server}
    (hr : w.controller.store.byNumber? group number = some r) (hother : r.id ≠ s.id) :
    let w' := w.step (.go t env replies)
    w'.controller.store.get? r.id = some r ∧ w'.controller.store.byNumber? group number = some r ∧
      w'.controller.numbers.isHeld group number = true := by
  intro w'
  have h' : w'.Sound := h.step _
  have hkept := (hpursues.touchesOnly h env replies).byNumber?_eq h.books.store h'.books.store hr hother
  rcases h.books.store.byNumber?_eq_some_iff.mp hr with ⟨hgroup, hnumber⟩
  have hheld := h'.books.isHeld hkept.left
  rw [(Store.mem_byGroup.mp hgroup).right, hnumber] at hheld
  exact ⟨hkept.left, hkept.right, hheld⟩

theorem Pursues.not_found (hpursues : w.Pursues t s cause calls) (h : w.Sound)
    (htask : w.tasks t = some ⟨order, .asking (.stop k)⟩)
    (hgone : w.controller.store.get? s.id = none) (env : Env) (theirs : Server) (time : Time.Instant) :
    let w' := w.step (.go t env [⟨.ok theirs, time⟩])
    w'.controller = w.controller ∧
      w'.tasks t = some ⟨order, .ended (.server (.error (.serverNotFound s.id)))⟩ := by
  rcases hpursues.eq_stop h htask with ⟨_, _, hjob, hid⟩
  cases hjob
  rw [← hid] at hgone ⊢
  have hfinish : w.controller.finishStop env k (.ok theirs) =
      (w.controller, .error (.serverNotFound k.server.id)) := by
    have hstore : w.controller.store.Consistent := h.books.store
    simp only [Controller.finishStop, hstore.remove_eq, hgone]
  rw [Fleet.step, go_of_asking htask rfl env]
  simp only [Controller.resume, Controller.single, hfinish]
  exact ⟨rfl, Function.update_self _ _ _⟩

/-!
# Every run
-/

theorem course_map_move (settings : ControlSettings) (moves : List Move) :
    course settings (moves.map .move) = run settings moves :=
  List.foldl_map

theorem callsOf_map_snoc (settings : ControlSettings) (t : Nat) (moves : List Move) (move : Move) :
    callsOf settings t ((moves ++ [move]).map .move) =
      callsOf settings t (moves.map .move) ++ (run settings moves).sends t (.move move) := by
  rw [List.map_append, List.map_singleton, callsOf_snoc, course_map_move]

theorem callsOf_of_unknown (settings : ControlSettings) {moves : List Move}
    (h : (run settings moves).next ≤ t) : callsOf settings t (moves.map .move) = [] := by
  rw [← course_map_move] at h
  exact ((opens_course settings t (moves.map .move)).unknown h).left

theorem Sound.step_stopNumber (h : w.Sound) {group : String} {number : Nat}
    (hs : w.controller.serverByNumber group number = .ok s) (cause : Cause) :
    w.step (.stopNumber group number cause) = w.spawn (.stop s.id cause) ∧
      (w.step (.stopNumber group number cause)).Pursues w.next s cause [] := by
  have hspawn : w.step (.stopNumber group number cause) = w.spawn (.stop s.id cause) := by
    rw [Fleet.step, Controller.stopByNumber, hs]
    rfl
  have hstored := ((Controller.serverByNumber_eq_ok_iff h.books.store).mp hs).left
  have hmine : (w.spawn (.stop s.id cause)).tasks w.next = some ⟨.stop s.id cause, .ordered⟩ := by
    rw [Fleet.tasks_spawn, Function.update_self]
  refine ⟨hspawn, ?_⟩
  rw [hspawn]
  constructor
  case issued =>
    exact Nat.lt_succ_self _
  case placed =>
    exact h.books.placed s (Store.mem_of_get? hstored).left
  case order =>
    intro task htask
    rw [hmine] at htask
    rw [← Option.some.inj htask]
  case ordered =>
    exact fun _ _ => rfl
  case calls =>
    exact Or.inl rfl

theorem pursues_run (settings : ControlSettings) (before later : List Move) {group : String} {number : Nat}
    (hs : (run settings before).controller.serverByNumber group number = .ok s) (cause : Cause) :
    let moves := before ++ .stopNumber group number cause :: later
    (run settings moves).Pursues (run settings before).next s cause
      (callsOf settings (run settings before).next (moves.map .move)) := by
  induction later using List.reverseRecOn with
  | nil =>
      have hsound := sound_run settings before
      have hnone : (run settings before).sends (run settings before).next
          (.move (.stopNumber group number cause)) = [] := rfl
      intro moves
      rw [callsOf_map_snoc, hnone, callsOf_of_unknown settings (Nat.le_refl _), run_snoc]
      exact (hsound.step_stopNumber hs cause).right
  | append_singleton later move ih =>
      intro moves
      have hmoves : moves = (before ++ .stopNumber group number cause :: later) ++ [move] := by
        rw [List.append_assoc, List.cons_append]
      rw [hmoves, callsOf_map_snoc, run_snoc]
      exact ih.step (sound_run settings _) move

/-- A stop by number fails at once if no server has the number.  Otherwise it is about the one server that
has it now: whatever happens meanwhile, it asks for no other termination, touches no other record or number,
and does not find the server if it is gone when the host confirms.  Who has the number by then keeps it. -/
theorem stop_by_number_keeps_to_its_server (settings : ControlSettings) (before : List Move)
    (group : String) (number : Nat) (cause : Cause) :
    let w := run settings before
    ((∀ s, w.controller.store.get? s.id = some s → s.group = group → s.number.toNat ≠ number) →
      w.controller.serverByNumber group number = .error (.numberNotFound group number) ∧
        w.step (.stopNumber group number cause) = w) ∧
    ∀ s, w.controller.store.get? s.id = some s → s.group = group → s.number.toNat = number →
      w.step (.stopNumber group number cause) = w.spawn (.stop s.id cause) ∧
      ∀ later,
        let moves := before ++ .stopNumber group number cause :: later
        let v := run settings moves
        TerminatesOnce (callsOf settings w.next (moves.map .move)) s ∧
        ∀ env replies,
          let v' := v.step (.go w.next env replies)
          v.controller.TouchesOnly v'.controller s.id ∧
          (∀ r, v.controller.store.byNumber? group number = some r → r.id ≠ s.id →
            v'.controller.store.get? r.id = some r ∧
              v'.controller.store.byNumber? group number = some r ∧
              v'.controller.numbers.isHeld group number = true) ∧
          ∀ order k theirs time, v.tasks w.next = some ⟨order, .asking (.stop k)⟩ →
            replies = [⟨.ok theirs, time⟩] → v.controller.store.get? s.id = none →
            v'.controller = v.controller ∧
              v'.tasks w.next = some ⟨order, .ended (.server (.error (.serverNotFound s.id)))⟩ := by
  intro w
  have hsound : w.Sound := sound_run settings before
  constructor
  · intro hfree
    have hfailed := Controller.serverByNumber_eq_error hsound.books.store hfree
    refine ⟨hfailed, ?_⟩
    rw [Fleet.step, Controller.stopByNumber, hfailed]
    rfl
  · intro s hstored hgroup hnumber
    have hs := (Controller.serverByNumber_eq_ok_iff hsound.books.store).mpr ⟨hstored, hgroup, hnumber⟩
    refine ⟨(hsound.step_stopNumber hs cause).left, ?_⟩
    intro later moves v
    have hv : v.Sound := sound_run settings moves
    have hpursues := pursues_run settings before later hs cause
    refine ⟨hpursues.calls, ?_⟩
    intro env replies v'
    refine ⟨hpursues.touchesOnly hv env replies, ?_, ?_⟩
    · intro r hr hother
      exact hpursues.keeps_other hv env replies hr hother
    · intro order k theirs time htask hreplies hgone
      rw [show v' = v.step (.go w.next env replies) from rfl, hreplies]
      exact hpursues.not_found hv htask hgone env theirs time

namespace Recycled

open Overlap

def before : List Move :=
  moves.take 6

/-- The stop by number sets out.  Another stop takes the server away, and a start gets its number. -/
def later : List Move := [
  .go 2 ⟨noon, Id.ofNat 8⟩ [],
  .order (.stop server .api),
  .go 3 ⟨noon, Id.ofNat 8⟩ [],
  .go 3 ⟨noon, Id.ofNat 8⟩ [⟨.ok answer, noon⟩],
  .order (.start "lobby" .api),
  .go 4 ⟨noon, Id.ofNat 9⟩ []]

def fleet : Fleet :=
  run settings (before ++ .stopNumber "lobby" 1 .api :: later)

def newer : Server :=
  { Echo.sent with id := Id.ofNat 9 }

def confirmed : Move :=
  .go 2 ⟨noon, Id.ofNat 8⟩ [⟨.ok answer, noon⟩]

end Recycled

open Recycled Overlap in
theorem stop_by_number_keeps_to_its_server_recycled :
    (run settings before).controller.store.get? answer.id = some answer ∧
      fleet.controller.store.get? answer.id = none ∧
      fleet.controller.store.byNumber? "lobby" 1 = some newer ∧ newer.id ≠ answer.id ∧
      (fleet.step confirmed).controller = fleet.controller ∧
      (∃ order, (fleet.step confirmed).tasks 2 =
        some ⟨order, .ended (.server (.error (.serverNotFound answer.id)))⟩) ∧
      (fleet.step confirmed).controller.store.byNumber? "lobby" 1 = some newer ∧
      (fleet.step confirmed).controller.numbers.isHeld "lobby" 1 = true := by
  have hnext : (run settings before).next = 2 := by decide +kernel
  have hstored : (run settings before).controller.store.get? answer.id = some answer := by
    decide +kernel
  have hgone : fleet.controller.store.get? answer.id = none := by decide +kernel
  have hnewer : fleet.controller.store.byNumber? "lobby" 1 = some newer := by decide +kernel
  have hother : newer.id ≠ answer.id := by decide
  rcases @task_of_stopping? fleet 2 Mistaken.work (by decide +kernel) with
    ⟨order, htask⟩
  have hkeeps := ((stop_by_number_keeps_to_its_server settings before "lobby" 1 .api).right answer
    hstored rfl rfl).right later
  rw [hnext] at hkeeps
  rcases hkeeps.right ⟨noon, Id.ofNat 8⟩ [⟨.ok answer, noon⟩] with ⟨_, hkept, hfailed⟩
  rcases hfailed order Mistaken.work answer noon htask rfl hgone with ⟨hcontroller, hended⟩
  rcases hkept newer hnewer hother with ⟨_, hfound, hheld⟩
  exact ⟨hstored, hgone, hnewer, hother, hcontroller, ⟨order, hended⟩, hfound, hheld⟩

end Fleet
end ServerFleet
