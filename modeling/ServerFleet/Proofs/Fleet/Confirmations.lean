import ServerFleet.Proofs.Fleet.Overrides
import ServerFleet.Proofs.Fleet.Reattachment
import ServerFleet.Proofs.Fleet.Removals

/-!
# Confirmed launches

A launch that its host has confirmed is either committed or undone on the host, also if
its record is taken away meanwhile.  What a start has sent and published is told by the
steps that its task has made.
-/

namespace ServerFleet

namespace Controller

variable {c : Controller}

/-!
# Events of a start
-/

theorem feed_begin (c : Controller) (env : Env) (order : Order) :
    (c.begin env order).1.feed = c.feed := by
  cases order with
  | start group cause =>
      exact (frame_beginStart c env group cause).left
  | stop id cause =>
      rfl
  | attach host =>
      rw [begin, beginAttach]
      simp only
      split
      next =>
        rfl
      next =>
        rfl

theorem lacks_rollBack (h : c.store.Consistent) (s : Server)
    (hrefusal : c.store.database.refusal (.deleteServer s.id.text) = none) :
    (c.rollBack s).store.Lacks s.id := by
  by_cases hid : s.id ∈ Store.ids c.store.index
  · rw [rollBack_eq h hid, hrefusal]
    apply (h.without s.id).lacks
    rw [Store.ids_without]
    exact fun hmem => hmem.right rfl
  · rw [rollBack, h.remove_eq_none_iff.mpr hid]
    exact h.lacks hid

theorem feed_rollBack (c : Controller) (s : Server) : (c.rollBack s).feed = c.feed := by
  rw [rollBack]
  split
  next =>
    rfl
  next =>
    rfl
  next =>
    rfl

theorem resume_undoing (h : c.store.Consistent) (env : Env) {u : Undo}
    (hgone : u.failure = none → u.provisional.id ∉ Store.ids c.store.index) (replies : List Reply) :
    ∃ c' e, c.resume env (.start (.undoing u)) replies = (c', .done (.server (.error e))) ∧
      c'.feed = c.feed ∧
      (u.failure = none ∨ c.store.database.refusal (.deleteServer u.provisional.id.text) = none →
        c'.store.Lacks u.provisional.id) := by
  rw [resume, resumeStart]
  cases hfailure : u.failure with
  | none =>
      have hlacks := h.lacks (hgone hfailure)
      exact ⟨_, _, rfl, rfl, fun _ => ⟨hlacks.index, hlacks.table⟩⟩
  | some e =>
      refine ⟨_, _, rfl, feed_rollBack c u.provisional, ?_⟩
      intro hcase
      rcases hcase with hnone | hrefusal
      · cases hnone
      · have hlacks := lacks_rollBack h u.provisional hrefusal
        exact ⟨hlacks.index, hlacks.table⟩

end Controller

namespace Fleet

def sends (w : Fleet) (t : Nat) (i : Incident) : List AgentCall :=
  match w.stepOf? t i with
  | some (_, _, p) => p.calls
  | none => []

def publishes (w : Fleet) (t : Nat) (i : Incident) : List FleetEvent :=
  match w.stepOf? t i with
  | some (_, c, _) => c.feed.events.drop w.events.length
  | none => []

def gather {α : Type} (f : Fleet → Incident → List α) (w : Fleet) : List Incident → List α
  | [] => []
  | i :: rest => f w i ++ gather f (w.undergo i) rest

def callsOf (settings : ControlSettings) (t : Nat) (incidents : List Incident) : List AgentCall :=
  gather (fun w i => w.sends t i) (fresh settings) incidents

def eventsOf (settings : ControlSettings) (t : Nat) (incidents : List Incident) : List FleetEvent :=
  gather (fun w i => w.publishes t i) (fresh settings) incidents

/-- What a task has sent and published up to the answer to its launch. -/
structure Opens (w : Fleet) (t : Nat) (calls : List AgentCall) (events : List FleetEvent) : Prop where
  unknown : w.next ≤ t → calls = [] ∧ events = []
  ordered : ∀ order, w.tasks t = some ⟨order, .ordered⟩ → calls = [] ∧ events = []
  launching : ∀ order l, w.tasks t = some ⟨order, .asking (.start (.launching l))⟩ →
    calls = [.launch l.host l.group l.provisional] ∧ events = []

/-- A start has committed its confirmed launch: it has ended well with the record, unless it is forgotten,
has sent its launch and nothing else, and has published one event. -/
structure CommitsLaunch (order : Order) (l : Launch) (m : Server) (now : Time.Instant) (task : Option Task)
    (calls : List AgentCall) (events : List FleetEvent) : Prop where
  ended : ∀ k, task = some k → k = ⟨order, .ended (.server (.ok m))⟩
  calls_eq : calls = [.launch l.host l.group l.provisional]
  events_eq : events = [.start m l.cause now]

/-- A start undoes its confirmed launch: it has told the host, once, to terminate the server, and waits for
the answer or has ended with an error, unless it is forgotten.  It has published nothing. -/
structure UndoesLaunch (order : Order) (l : Launch) (m : Server) (failure : Option StoreError)
    (task : Option Task) (calls : List AgentCall) (events : List FleetEvent) : Prop where
  undone : ∀ k, task = some k →
    k = ⟨order, .asking (.start (.undoing ⟨l.host, l.provisional, m, failure⟩))⟩ ∨
      ∃ e, k = ⟨order, .ended (.server (.error e))⟩
  calls_eq : calls = [.launch l.host l.group l.provisional, .terminate l.host m]
  events_eq : events = []

variable {w : Fleet} {t : Nat} {i : Incident} {order : Order} {c : Controller}
  {p : Progress Job Outcome} {task : Task} {calls : List AgentCall} {events : List FleetEvent}
  {l : Launch} {m : Server} {now : Time.Instant} {failure : Option StoreError}

/-!
# Calls and events
-/

theorem gather_append {α : Type} (f : Fleet → Incident → List α) (w : Fleet)
    (incidents more : List Incident) :
    gather f w (incidents ++ more) = gather f w incidents ++ gather f (incidents.foldl undergo w) more := by
  induction incidents generalizing w with
  | nil =>
      rfl
  | cons i rest ih =>
      rw [List.cons_append, gather, ih, gather, List.append_assoc]
      rfl

theorem callsOf_snoc (settings : ControlSettings) (t : Nat) (incidents : List Incident) (i : Incident) :
    callsOf settings t (incidents ++ [i]) =
      callsOf settings t incidents ++ (course settings incidents).sends t i := by
  rw [callsOf, gather_append, gather, gather, List.append_nil]
  rfl

theorem eventsOf_snoc (settings : ControlSettings) (t : Nat) (incidents : List Incident) (i : Incident) :
    eventsOf settings t (incidents ++ [i]) =
      eventsOf settings t incidents ++ (course settings incidents).publishes t i := by
  rw [eventsOf, gather_append, gather, gather, List.append_nil]
  rfl

/-- What the steps of a task keep of it, of its calls and of its events holds in the further course. -/
theorem course_induction {P : Fleet → List AgentCall → List FleetEvent → Prop}
    (settings : ControlSettings) (t : Nat) (incidents more : List Incident)
    (hstart : P (course settings incidents) (callsOf settings t incidents) (eventsOf settings t incidents))
    (hstep : ∀ w calls events i, w.Orderly → P w calls events →
      P (w.undergo i) (calls ++ w.sends t i) (events ++ w.publishes t i)) :
    P (course settings (incidents ++ more)) (callsOf settings t (incidents ++ more))
      (eventsOf settings t (incidents ++ more)) := by
  induction more using List.reverseRecOn with
  | nil =>
      rw [List.append_nil]
      exact hstart
  | append_singleton more i ih =>
      rw [← List.append_assoc, course_snoc, callsOf_snoc, eventsOf_snoc]
      exact hstep _ _ _ i (orderly_course settings _) ih

theorem traces_of_none (h : w.stepOf? t i = none) : w.sends t i = [] ∧ w.publishes t i = [] := by
  rw [sends, publishes, h]
  exact ⟨rfl, rfl⟩

theorem traces_of_some (h : w.stepOf? t i = some (order, c, p)) :
    w.sends t i = p.calls ∧ w.publishes t i = c.feed.events.drop w.events.length := by
  rw [sends, publishes, h]
  exact ⟨rfl, rfl⟩

theorem publishes_of_feed (h : w.stepOf? t i = some (order, c, p))
    (hfeed : c.feed = w.controller.feed) : w.publishes t i = [] := by
  rw [(traces_of_some h).right, hfeed]
  exact List.drop_length

theorem Opens.undergo (hopens : w.Opens t calls events) (h : w.Orderly) (i : Incident) :
    (w.undergo i).Opens t (calls ++ w.sends t i) (events ++ w.publishes t i) := by
  cases hstep : w.stepOf? t i with
  | none =>
      rcases traces_of_none hstep with ⟨hsends, hpublishes⟩
      rw [hsends, hpublishes, List.append_nil, List.append_nil]
      constructor
      case unknown =>
        intro ht
        exact hopens.unknown (Nat.le_trans (w.next_undergo i) ht)
      case ordered =>
        intro order htask
        rcases of_tasks_undergo hstep htask with hsame | ⟨hnew, _⟩
        · exact hopens.ordered order hsame
        · exact hopens.unknown hnew
      case launching =>
        intro order l htask
        rcases of_tasks_undergo hstep htask with hsame | ⟨_, hordered⟩
        · exact hopens.launching order l hsame
        · cases hordered
  | some found =>
      rcases found with ⟨order, c, p⟩
      rw [undergo_of_stepOf? hstep]
      have hmine : (w.advance t order (c, p)).tasks t = some ⟨order, p.stage⟩ :=
        Function.update_self _ _ _
      have hknown : ¬ w.next ≤ t := by
        intro ht
        have hnone := h.bound t ht
        rcases stepOf?_eq_some hstep with ⟨_, _, _, ⟨hold, _⟩ | ⟨_, hold, _⟩⟩
        · rw [hold] at hnone
          cases hnone
        · rw [hold] at hnone
          cases hnone
      constructor
      case unknown =>
        intro ht
        exact absurd ht hknown
      case ordered =>
        intro order' htask
        rw [hmine] at htask
        exact absurd (congrArg Task.stage (Option.some.inj htask)) (stage_ne_ordered p)
      case launching =>
        intro order' l htask
        rw [hmine] at htask
        have hwaiting := eq_waiting_of_stage (congrArg Task.stage (Option.some.inj htask))
        rcases stepOf?_eq_some hstep with ⟨env, replies, _, ⟨hold, _, hbegin⟩ | ⟨job, hold, hresume⟩⟩
        · have hfeed : c.feed = w.controller.feed := by
            rw [← w.controller.feed_begin env order, hbegin]
          rcases hopens.ordered order hold with ⟨rfl, rfl⟩
          rw [(traces_of_some hstep).left, publishes_of_feed hstep hfeed, hwaiting]
          exact ⟨rfl, rfl⟩
        · have hresumed : (w.controller.resume env job replies).2 = .waiting (.start (.launching l)) := by
            rw [hresume]
            exact hwaiting
          rcases Controller.undoing_of_resume hresumed with ⟨_, _, _, _, _, hundoing, _⟩
          rw [hundoing] at hresumed
          cases hresumed

theorem opens_course (settings : ControlSettings) (t : Nat) (incidents : List Incident) :
    (course settings incidents).Opens t (callsOf settings t incidents)
      (eventsOf settings t incidents) := by
  refine course_induction (P := fun w calls events => w.Opens t calls events) settings t [] incidents ?_
    fun w calls events i h hopens => hopens.undergo h i
  constructor
  case unknown =>
    exact fun _ => ⟨rfl, rfl⟩
  case ordered =>
    intro order htask
    cases htask
  case launching =>
    intro order l htask
    cases htask

theorem tasks_undergo_of_issued (hstep : w.stepOf? t i = none) (hissued : t < w.next)
    (h : (w.undergo i).tasks t = some task) : w.tasks t = some task := by
  rcases of_tasks_undergo hstep h with hsame | ⟨hnew, _⟩
  · exact hsame
  · exact absurd hissued (Nat.not_lt_of_le hnew)

theorem CommitsLaunch.undergo (hcommits : CommitsLaunch order l m now (w.tasks t) calls events)
    (hissued : t < w.next) (i : Incident) :
    CommitsLaunch order l m now ((w.undergo i).tasks t) (calls ++ w.sends t i)
      (events ++ w.publishes t i) := by
  have hidle : w.stepOf? t i = none := by
    rw [Option.eq_none_iff_forall_ne_some]
    intro step hstep
    rcases stepOf?_eq_some hstep with ⟨_, _, _, ⟨hold, _⟩ | ⟨_, hold, _⟩⟩
    · cases hcommits.ended _ hold
    · cases hcommits.ended _ hold
  rcases traces_of_none hidle with ⟨hsends, hpublishes⟩
  rw [hsends, hpublishes, List.append_nil, List.append_nil]
  exact ⟨fun k hk => hcommits.ended k (tasks_undergo_of_issued hidle hissued hk), hcommits.calls_eq,
    hcommits.events_eq⟩

theorem UndoesLaunch.resume (hundoes : UndoesLaunch order l m failure (w.tasks t) calls events)
    (h : w.Orderly) {order' : Order} (hstep : w.stepOf? t i = some (order', c, p)) :
    ∃ e, order' = order ∧ p = .done (.server (.error e)) ∧ c.feed = w.controller.feed ∧
      (failure = none ∨
          w.controller.store.database.refusal (.deleteServer l.provisional.id.text) = none →
        c.store.Lacks l.provisional.id) := by
  rcases stepOf?_eq_some hstep with ⟨env, replies, _, ⟨hold, _⟩ | ⟨job, hold, hresume⟩⟩
  · rcases hundoes.undone _ hold with hwaits | ⟨e, hended⟩
    · cases hwaits
    · cases hended
  · rcases hundoes.undone _ hold with hwaits | ⟨e, hended⟩
    · cases hwaits
      rcases Controller.resume_undoing h.store env (h.gone t _ _ hold) replies with
        ⟨c', e, hundone, hfeed, hlacks⟩
      rw [hundone] at hresume
      cases hresume
      exact ⟨e, rfl, rfl, hfeed, hlacks⟩
    · cases hended

theorem UndoesLaunch.undergo (hundoes : UndoesLaunch order l m failure (w.tasks t) calls events)
    (h : w.Orderly) (hissued : t < w.next) (i : Incident) :
    UndoesLaunch order l m failure ((w.undergo i).tasks t) (calls ++ w.sends t i)
      (events ++ w.publishes t i) := by
  cases hstep : w.stepOf? t i with
  | none =>
      rcases traces_of_none hstep with ⟨hsends, hpublishes⟩
      rw [hsends, hpublishes, List.append_nil, List.append_nil]
      exact ⟨fun k hk => hundoes.undone k (tasks_undergo_of_issued hstep hissued hk), hundoes.calls_eq,
        hundoes.events_eq⟩
  | some found =>
      rcases found with ⟨order', c, p⟩
      rcases hundoes.resume h hstep with ⟨e, rfl, rfl, hfeed, _⟩
      rw [publishes_of_feed hstep hfeed, (traces_of_some hstep).left, List.append_nil,
        undergo_of_stepOf? hstep, tasks_advance, Function.update_self]
      refine ⟨?_, ?_, hundoes.events_eq⟩
      · intro k hk
        exact Or.inr ⟨e, (Option.some.inj hk).symm⟩
      · rw [hundoes.calls_eq]
        rfl

theorem Opens.conclude (hopens : w.Opens t calls events) (h : w.Orderly) {env : Env} {reply : Reply}
    (hwaits : w.tasks t = some ⟨order, .asking (.start (.launching l))⟩)
    (hmerged : (reply.answer.bind fun theirs => l.provisional.merge theirs env.now) = .ok m) :
    let i := Incident.move (.go t env [reply])
    (CommitsLaunch order l m env.now ((w.undergo i).tasks t) (calls ++ w.sends t i)
        (events ++ w.publishes t i) ∧
      (w.undergo i).tasks t = some ⟨order, .ended (.server (.ok m))⟩ ∧
      (w.undergo i).controller.store.get? m.id = some m ∧
      ServerRow.ofServer m ∈ (w.undergo i).controller.store.database.servers) ∨
    ∃ failure, UndoesLaunch order l m failure ((w.undergo i).tasks t) (calls ++ w.sends t i)
        (events ++ w.publishes t i) ∧
      (w.undergo i).tasks t =
        some ⟨order, .asking (.start (.undoing ⟨l.host, l.provisional, m, failure⟩))⟩ := by
  intro i
  rcases hopens.launching order l hwaits with ⟨rfl, rfl⟩
  have hresume : w.controller.resume env (.start (.launching l)) [reply] =
      ((w.controller.commit env l m).1, (w.controller.commit env l m).2.lift .start .server) := by
    rw [Controller.resume, Controller.resumeStart, Controller.single, hmerged]
  have hstep : w.stepOf? t i = some (order, w.controller.resume env (.start (.launching l)) [reply]) := by
    rw [stepOf?, if_pos rfl, turn?, hwaits]
    rfl
  rw [hresume] at hstep
  have hmine : (w.undergo i).tasks t =
      some ⟨order, ((w.controller.commit env l m).2.lift .start .server).stage⟩ := by
    rw [undergo_of_stepOf? hstep, tasks_advance, Function.update_self]
  have hcontroller : (w.undergo i).controller = (w.controller.commit env l m).1 := by
    rw [undergo_of_stepOf? hstep]
    rfl
  rw [(traces_of_some hstep).left, (traces_of_some hstep).right]
  rcases w.controller.commit_outcome env l m with
    ⟨st, hreplace, hdone, hstore, hevents⟩ | ⟨failure, hcommit, _⟩
  · rcases Store.replace_eq_some_iff.mp hreplace with ⟨_, hsave⟩
    rcases h.store.save_eq_ok_iff.mp hsave with ⟨_, hplace, rfl⟩
    rw [hdone] at hmine ⊢
    refine Or.inl ⟨⟨?_, rfl, ?_⟩, hmine, ?_, ?_⟩
    · intro k hk
      rw [hmine] at hk
      exact (Option.some.inj hk).symm
    · rw [hevents]
      exact List.drop_left
    · rw [hcontroller, hstore]
      exact (h.store.get?_stored hplace m.id).trans (if_pos rfl)
    · rw [hcontroller, hstore]
      exact (h.store.stored hplace).mem_rows (Store.mem_stored.mpr (Or.inl rfl))
  · rw [hcommit] at hmine ⊢
    refine Or.inr ⟨failure, ⟨?_, rfl, ?_⟩, hmine⟩
    · intro k hk
      rw [hmine] at hk
      exact Or.inl (Option.some.inj hk).symm
    · exact List.drop_length

/-!
# The whole course
-/

theorem commitsLaunch_course (settings : ControlSettings) (incidents more : List Incident)
    (hissued : t < (course settings incidents).next)
    (h : CommitsLaunch order l m now ((course settings incidents).tasks t)
      (callsOf settings t incidents) (eventsOf settings t incidents)) :
    CommitsLaunch order l m now ((course settings (incidents ++ more)).tasks t)
      (callsOf settings t (incidents ++ more)) (eventsOf settings t (incidents ++ more)) := by
  refine (course_induction (P := fun w calls events => t < w.next ∧
    CommitsLaunch order l m now (w.tasks t) calls events) settings t incidents more ⟨hissued, h⟩ ?_).right
  intro w calls events i _ hcommits
  exact ⟨Nat.lt_of_lt_of_le hcommits.left (w.next_undergo i), hcommits.right.undergo hcommits.left i⟩

theorem undoesLaunch_course (settings : ControlSettings) (incidents more : List Incident)
    (hissued : t < (course settings incidents).next)
    (h : UndoesLaunch order l m failure ((course settings incidents).tasks t)
      (callsOf settings t incidents) (eventsOf settings t incidents)) :
    UndoesLaunch order l m failure ((course settings (incidents ++ more)).tasks t)
      (callsOf settings t (incidents ++ more)) (eventsOf settings t (incidents ++ more)) := by
  refine (course_induction (P := fun w calls events => t < w.next ∧
    UndoesLaunch order l m failure (w.tasks t) calls events) settings t incidents more ⟨hissued, h⟩ ?_).right
  intro w calls events i horderly hundoes
  exact ⟨Nat.lt_of_lt_of_le hundoes.left (w.next_undergo i),
    hundoes.right.undergo horderly hundoes.left i⟩

theorem UndoesLaunch.ends (h : w.Orderly)
    (hundoes : UndoesLaunch order l m failure (w.tasks t) calls events)
    (hwaits : w.tasks t =
      some ⟨order, .asking (.start (.undoing ⟨l.host, l.provisional, m, failure⟩))⟩)
    (env : Env) (reply : Reply) :
    let w' := w.undergo (.move (.go t env [reply]))
    (∃ e, w'.tasks t = some ⟨order, .ended (.server (.error e))⟩) ∧
      (failure = none ∨
          w.controller.store.database.refusal (.deleteServer l.provisional.id.text) = none →
        w'.controller.store.Lacks l.provisional.id) := by
  intro w'
  rcases hresume : w.controller.resume env
    (.start (.undoing ⟨l.host, l.provisional, m, failure⟩)) [reply] with ⟨c, p⟩
  have hstep : w.stepOf? t (.move (.go t env [reply])) = some (order, c, p) := by
    rw [stepOf?, if_pos rfl, turn?, hwaits, ← hresume]
    rfl
  rcases hundoes.resume h hstep with ⟨e, _, rfl, _, hlacks⟩
  have hended : w' = w.advance t order (c, .done (.server (.error e))) := undergo_of_stepOf? hstep
  rw [hended]
  exact ⟨⟨e, Function.update_self _ _ _⟩, hlacks⟩

/-- A launch was answered with a record of its server, in a course in which records may also have been taken
out of the store and any writes may have been refused.  Either the start ends well, its record is stored
as it was merged, it has published one event and never tells the host to terminate; or it tells this host
once to terminate the server, publishes nothing, and whatever the host says it ends with an error.  Then
the record is gone, unless the database refused to delete it. -/
theorem confirmed_launch_concludes (settings : ControlSettings) (before : List Incident) (env : Env)
    {t : Nat} {order : Order} {l : Launch} {reply : Reply} {theirs : Server}
    (hwaits : (course settings before).tasks t = some ⟨order, .asking (.start (.launching l))⟩)
    (hanswer : reply.answer = .ok theirs) (hid : theirs.id = l.provisional.id) :
    let answered := before ++ [.move (.go t env [reply])]
    ∃ m, l.provisional.merge theirs env.now = .ok m ∧ m.id = l.provisional.id ∧
      (((course settings answered).tasks t = some ⟨order, .ended (.server (.ok m))⟩ ∧
          (course settings answered).controller.store.get? m.id = some m ∧
          ServerRow.ofServer m ∈ (course settings answered).controller.store.database.servers ∧
          ∀ later, CommitsLaunch order l m env.now ((course settings (answered ++ later)).tasks t)
            (callsOf settings t (answered ++ later)) (eventsOf settings t (answered ++ later))) ∨
        ∃ failure, (course settings answered).tasks t =
            some ⟨order, .asking (.start (.undoing ⟨l.host, l.provisional, m, failure⟩))⟩ ∧
          ∀ later, UndoesLaunch order l m failure ((course settings (answered ++ later)).tasks t)
              (callsOf settings t (answered ++ later)) (eventsOf settings t (answered ++ later)) ∧
            ∀ env' reply', (course settings (answered ++ later)).tasks t =
                some ⟨order, .asking (.start (.undoing ⟨l.host, l.provisional, m, failure⟩))⟩ →
              let ending := answered ++ later ++ [.move (.go t env' [reply'])]
              (∃ e, (course settings ending).tasks t = some ⟨order, .ended (.server (.error e))⟩) ∧
                (failure = none ∨ (course settings (answered ++ later)).controller.store.database.refusal
                    (.deleteServer l.provisional.id.text) = none →
                  (course settings ending).controller.store.Lacks l.provisional.id)) := by
  intro answered
  have h := orderly_course settings before
  rcases Controller.merge_of_id hid env.now with ⟨m, hmerge, _, _⟩
  have hmerged : (reply.answer.bind fun theirs => l.provisional.merge theirs env.now) = .ok m := by
    rw [hanswer]
    exact hmerge
  have hissued : t < (course settings answered).next := by
    have hbefore : t < (course settings before).next := by
      by_contra hlate
      rw [h.bound t (Nat.le_of_not_lt hlate)] at hwaits
      cases hwaits
    rw [course_snoc]
    exact Nat.lt_of_lt_of_le hbefore (next_undergo _ _)
  refine ⟨m, hmerge, Server.id_of_identity (Server.identity_of_merge hmerge), ?_⟩
  have hconclude := (opens_course settings t before).conclude h hwaits hmerged
  simp only [← course_snoc, ← callsOf_snoc, ← eventsOf_snoc] at hconclude
  rcases hconclude with ⟨hcommits, hended, hstored, hrow⟩ | ⟨failure, hundoes, hasks⟩
  · exact Or.inl ⟨hended, hstored, hrow, fun later =>
      commitsLaunch_course settings answered later hissued hcommits⟩
  · refine Or.inr ⟨failure, hasks, ?_⟩
    intro later
    have hlater := undoesLaunch_course settings answered later hissued hundoes
    refine ⟨hlater, ?_⟩
    intro env' reply' hstill
    simp only [course_snoc]
    exact hlater.ends (orderly_course settings _) hstill env' reply'

namespace Vanished

open Overlap

def before : List Incident :=
  Echo.before.map .move ++ [.removal server]

def answered : List Incident :=
  before ++ [.move (.go 1 Echo.env [⟨.ok Echo.sent, noon⟩])]

theorem launching : ∃ order l, (course settings before).tasks 1 =
    some ⟨order, .asking (.start (.launching l))⟩ ∧ l.provisional = Echo.sent :=
  task_of_launched? (by decide +kernel)

theorem gone : (course settings answered).controller.store.get? server = none := by
  decide +kernel

end Vanished

open Vanished in
theorem confirmed_launch_concludes_vanished :
    ∃ order l, (course Overlap.settings before).tasks 1 =
        some ⟨order, .asking (.start (.launching l))⟩ ∧
      Echo.sent.id = l.provisional.id ∧
      callsOf Overlap.settings 1 answered =
        [.launch l.host l.group l.provisional, .terminate l.host Echo.sent] ∧
      eventsOf Overlap.settings 1 answered = [] := by
  rcases launching with ⟨order, l, hwaits, hsent⟩
  have hid : Echo.sent.id = l.provisional.id := congrArg Server.id hsent.symm
  have hanswer : (⟨.ok Echo.sent, Overlap.noon⟩ : Reply).answer = .ok Echo.sent := rfl
  rcases confirmed_launch_concludes Overlap.settings before Echo.env hwaits hanswer hid with
    ⟨m, hmerge, hm, ⟨_, hstored, _⟩ | ⟨failure, _, hundoes⟩⟩
  · rw [hm, ← hid] at hstored
    cases gone.symm.trans hstored
  · have hsame : Echo.sent = m := by
      rw [hsent] at hmerge
      exact Except.ok.inj hmerge
    have hundone := (hundoes []).left
    rw [List.append_nil, ← hsame] at hundone
    exact ⟨order, l, hwaits, hid, hundone.calls_eq, hundone.events_eq⟩

end Fleet
end ServerFleet
