import ServerFleet.Proofs.Fleet.Confirmations

/-!
# Callers

A start, a stop or a registration is called by a client, or by a pass.  Such a call does nothing before
it is polled for the first time.  Then it hands its order to a task, at once, and waits for this task.
All that is done for the order is done by the task, so it makes no difference to anything but the call
itself whether its caller goes on waiting or drops it.
-/

namespace ServerFleet
namespace Fleet

inductive Request where
  | order (order : Order)
  | stopNumber (group : String) (number : Nat) (cause : Cause)

namespace Request

def move : Request → Move
  | order ordered => .order ordered
  | stopNumber group number cause => .stopNumber group number cause

def refusal? (c : Controller) : Request → Option ControlError
  | order _ => none
  | stopNumber group number cause =>
      match c.stopByNumber group number cause with
      | .error e => some e
      | .ok _ => none

end Request

inductive Call where
  | created (request : Request)
  | waiting (task : Nat)
  | returned (outcome : Outcome)

inductive Caller where
  | client (call : Nat)
  | pass (pass : Nat)

inductive Act where
  | create (request : Request)
  | poll (call : Nat)
  | drop (caller : Caller)
  | move (move : Move)

/-- A fleet with the calls of its clients; a call that was dropped is gone. -/
structure Attended where
  fleet : Fleet
  calls : Nat → Option Call
  created : Nat

namespace Attended

def begin (a : Attended) (x : Nat) (request : Request) : Attended :=
  let call : Call := match request.refusal? a.fleet.controller with
    | some e => .returned (.server (.error e))
    | none => .waiting a.fleet.next
  { a with
    fleet := a.fleet.step request.move
    calls := Function.update a.calls x (some call) }

def poll (a : Attended) (x : Nat) : Attended :=
  match a.calls x with
  | none => a
  | some (.returned _) => a
  | some (.created request) => a.begin x request
  | some (.waiting task) =>
      match a.fleet.tasks task with
      | some ⟨_, .ended outcome⟩ =>
          { a with calls := Function.update a.calls x (some (.returned outcome)) }
      | _ => a

/-- Drops a caller; the task that it waits for is not told. -/
def drop (a : Attended) : Caller → Attended
  | .client x => { a with calls := Function.update a.calls x none }
  | .pass p => { a with fleet.passes := Function.update a.fleet.passes p none }

def step (a : Attended) : Act → Attended
  | .create request =>
      { a with
        calls := Function.update a.calls a.created (some (.created request))
        created := a.created + 1 }
  | .poll x => a.poll x
  | .drop caller => a.drop caller
  | .move (.restart settings) =>
      { a with fleet := a.fleet.step (.restart settings), calls := fun _ => none }
  | .move move => { a with fleet := a.fleet.step move }

def sends (a : Attended) : Act → List AgentCall
  | .move (.go t env replies) => a.fleet.sends t (.move (.go t env replies))
  | _ => []

def publishes (a : Attended) (act : Act) : List FleetEvent :=
  (a.step act).fleet.events.drop a.fleet.events.length

def log (a : Attended) : List Act → List (List AgentCall × List FleetEvent)
  | [] => []
  | act :: rest => (a.sends act, a.publishes act) :: (a.step act).log rest

def Waits (a : Attended) : Caller → Prop
  | .client x => ∃ task, a.calls x = some (.waiting task)
  | .pass p => ∃ pass task, a.fleet.passes p = some (.waiting pass task)

/-- A caller will hand over nothing any more: its call has begun, or is gone. -/
def Begun (a : Attended) : Caller → Prop
  | .client x => x < a.created ∧ ∀ request, a.calls x ≠ some (.created request)
  | .pass _ => True

end Attended

def attend (settings : ControlSettings) (acts : List Act) : Attended :=
  acts.foldl Attended.step ⟨fresh settings, fun _ => none, 0⟩

structure AlikeBut (hidden : Nat → Prop) (v w : Fleet) : Prop where
  controller : v.controller = w.controller
  placed : v.placed = w.placed
  tasks : v.tasks = w.tasks
  next : v.next = w.next
  passes : ∀ p, ¬ hidden p → v.passes p = w.passes p

/-- Nobody but a caller can tell two fleets from each other: everything that the controller keeps is the
same, all tasks are, and so are all other passes and calls. -/
structure Unnoticed (who : Caller) (a b : Attended) : Prop where
  fleet : AlikeBut (fun p => who = .pass p) a.fleet b.fleet
  calls : ∀ x, who ≠ .client x → a.calls x = b.calls x
  created : a.created = b.created

variable {hidden : Nat → Prop} {v w : Fleet} {a b : Attended} {who : Caller} {x : Nat}

/-!
# Fleets
-/

section Passes

variable {passes : Nat → Option PassStage}

theorem alikeBut_with (h : ∀ p, ¬ hidden p → passes p = w.passes p) :
    AlikeBut hidden { w with passes } w :=
  ⟨rfl, rfl, rfl, rfl, h⟩

theorem alikeBut_update (h : ∀ p, ¬ hidden p → passes p = w.passes p) (p : Nat) (stage : Option PassStage) :
    AlikeBut hidden { w with passes := Function.update passes p stage }
      { w with passes := Function.update w.passes p stage } := by
  refine ⟨rfl, rfl, rfl, rfl, ?_⟩
  intro q hq
  simp only [Function.update_apply, h q hq]

theorem alikeBut_advancePass (h : ∀ p, ¬ hidden p → passes p = w.passes p) (p : Nat)
    (progress : Progress Pass PassStats) :
    AlikeBut hidden (({ w with passes } : Fleet).advancePass p progress) (w.advancePass p progress) := by
  cases progress with
  | done stats =>
      exact alikeBut_update h p _
  | waiting pass =>
      exact @alikeBut_update hidden (w.spawn pass.order) passes h p _

theorem alikeBut_goPass (h : ∀ p, ¬ hidden p → passes p = w.passes p) {p : Nat} (hp : ¬ hidden p) :
    AlikeBut hidden (({ w with passes } : Fleet).goPass p) (w.goPass p) := by
  have hsame := alikeBut_with h
  simp only [Fleet.goPass, h p hp]
  cases w.passes p with
  | none =>
      exact hsame
  | some stage =>
      cases stage with
      | ended result =>
          exact hsame
      | ordered =>
          cases w.controller.beginPass with
          | error e =>
              exact alikeBut_update h p _
          | ok progress =>
              exact alikeBut_advancePass h p progress
      | waiting pass start =>
          dsimp only
          rcases w.tasks start with _ | ⟨order, _ | job | outcome⟩
          · exact hsame
          · exact hsame
          · exact hsame
          · cases outcome with
            | server result =>
                exact alikeBut_advancePass h p _
            | attached host report =>
                exact hsame

theorem alikeBut_step (h : ∀ p, ¬ hidden p → passes p = w.passes p) {move : Move}
    (hmove : ∀ p, hidden p → move ≠ .goPass p) :
    AlikeBut hidden (({ w with passes } : Fleet).step move) (w.step move) := by
  cases move with
  | goPass p =>
      exact alikeBut_goPass h fun hp => hmove p hp rfl
  | orderPass =>
      have hordered := (alikeBut_update h w.next (some .ordered)).passes
      exact ⟨rfl, rfl, rfl, rfl, hordered⟩
  | stopNumber group number cause =>
      simp only [Fleet.step]
      cases w.controller.stopByNumber group number cause with
      | error e =>
          exact alikeBut_with h
      | ok s =>
          exact ⟨rfl, rfl, rfl, rfl, h⟩
  | go t env replies =>
      have hturn : ({ w with passes } : Fleet).turn? t env replies = w.turn? t env replies := rfl
      rw [Fleet.step, Fleet.step, go_eq, go_eq, hturn]
      cases w.turn? t env replies with
      | none =>
          exact alikeBut_with h
      | some found =>
          exact ⟨rfl, rfl, rfl, rfl, h⟩
  | restart settings =>
      simp only [Fleet.step, Fleet.restart]
      cases Controller.assemble settings w.controller.store.database with
      | error e =>
          exact alikeBut_with h
      | ok c =>
          exact ⟨rfl, rfl, rfl, rfl, fun _ _ => rfl⟩
  | order _ | setState _ _ _ | setProperty _ _ _ _ | weather _ _ _ =>
      exact ⟨rfl, rfl, rfl, rfl, h⟩

end Passes

theorem AlikeBut.eq_with (h : AlikeBut hidden v w) : v = { w with passes := v.passes } := by
  cases v
  cases w
  cases h.controller
  cases h.placed
  cases h.tasks
  cases h.next
  rfl

theorem AlikeBut.step (h : AlikeBut hidden v w) {move : Move} (hmove : ∀ p, hidden p → move ≠ .goPass p) :
    AlikeBut hidden (v.step move) (w.step move) := by
  rw [h.eq_with]
  exact alikeBut_step h.passes hmove

theorem AlikeBut.sends_eq (h : AlikeBut hidden v w) (t : Nat) (i : Incident) : v.sends t i = w.sends t i := by
  rw [h.eq_with]
  rfl

/-!
# Calls
-/

namespace Attended

theorem poll_of_begun (h : ∀ request, a.calls x ≠ some (.created request)) :
    ∃ call, (∀ request, call ≠ some (.created request)) ∧
      a.poll x = { a with calls := Function.update a.calls x call } := by
  have hsame : a = { a with calls := Function.update a.calls x (a.calls x) } := by
    rw [Function.update_eq_self]
  rw [poll]
  split
  next =>
    exact ⟨a.calls x, h, hsame⟩
  next =>
    exact ⟨a.calls x, h, hsame⟩
  next request hcall =>
    exact absurd hcall (h request)
  next =>
    split
    next outcome _ =>
      refine ⟨some (.returned outcome), ?_, rfl⟩
      intro request hcreated
      cases hcreated
    next =>
      exact ⟨a.calls x, h, hsame⟩

theorem calls_poll_of_ne (a : Attended) {x y : Nat} (hne : y ≠ x) : (a.poll x).calls y = a.calls y := by
  rw [poll]
  split
  next =>
    rfl
  next =>
    rfl
  next =>
    exact Function.update_of_ne hne _ _
  next =>
    split
    next =>
      exact Function.update_of_ne hne _ _
    next =>
      rfl

theorem created_poll (a : Attended) (x : Nat) : (a.poll x).created = a.created := by
  rw [poll]
  split
  next =>
    rfl
  next =>
    rfl
  next =>
    rfl
  next =>
    split
    next =>
      rfl
    next =>
      rfl

theorem created_step_le (a : Attended) (act : Act) : a.created ≤ (a.step act).created := by
  cases act with
  | create request =>
      exact Nat.le_succ _
  | poll x =>
      exact Nat.le_of_eq (a.created_poll x).symm
  | drop caller =>
      cases caller <;> exact Nat.le_refl _
  | move move =>
      cases move <;> exact Nat.le_refl _

theorem calls_step (a : Attended) (act : Act) (x : Nat) :
    (a.step act).calls x = a.calls x ∨
      (x = a.created ∧ a.created < (a.step act).created) ∨
      (a.calls x = none → (a.step act).calls x = none) ∧
        ∀ request, (a.step act).calls x ≠ some (.created request) := by
  have hgone {b : Attended} (hnone : b.calls x = none) :
      (a.calls x = none → b.calls x = none) ∧ ∀ request, b.calls x ≠ some (.created request) := by
    rw [hnone]
    exact ⟨fun _ => rfl, fun _ hcall => nomatch hcall⟩
  cases act with
  | create request =>
      by_cases hx : x = a.created
      · exact Or.inr (Or.inl ⟨hx, Nat.lt_succ_self _⟩)
      · exact Or.inl (Function.update_of_ne hx _ _)
  | drop caller =>
      cases caller with
      | pass p =>
          exact Or.inl rfl
      | client y =>
          by_cases hx : x = y
          · exact Or.inr (Or.inr (hgone (hx ▸ Function.update_self x _ _)))
          · exact Or.inl (Function.update_of_ne hx _ _)
  | move move =>
      cases move with
      | restart settings =>
          exact Or.inr (Or.inr (hgone rfl))
      | _ =>
          exact Or.inl rfl
  | poll y =>
      by_cases hx : x = y
      · subst hx
        cases hcall : a.calls x with
        | none =>
            refine Or.inl ?_
            rw [step, poll, hcall]
            exact hcall
        | some call =>
            cases call with
            | created request =>
                refine Or.inr (Or.inr ⟨fun hnone => absurd hnone (Option.some_ne_none _), ?_⟩)
                intro again hagain
                rw [step, poll, hcall] at hagain
                have hbegun := (Function.update_self x _ a.calls).symm.trans hagain
                split at hbegun <;> cases hbegun
            | waiting _ | returned _ =>
                have hbegun : ∀ request, a.calls x ≠ some (.created request) := by
                  intro request hcreated
                  rw [hcall] at hcreated
                  cases hcreated
                rcases poll_of_begun hbegun with ⟨call, hleft, hpoll⟩
                refine Or.inr (Or.inr ⟨fun hnone => absurd hnone (Option.some_ne_none _), ?_⟩)
                intro request hrequest
                rw [step, hpoll] at hrequest
                exact hleft request ((Function.update_self x _ a.calls).symm.trans hrequest)
      · exact Or.inl (a.calls_poll_of_ne hx)

theorem Begun.step (h : a.Begun who) (act : Act) : (a.step act).Begun who := by
  cases who with
  | pass p =>
      trivial
  | client x =>
      rcases h with ⟨hcreated, hbegun⟩
      refine ⟨Nat.lt_of_lt_of_le hcreated (a.created_step_le act), ?_⟩
      rcases a.calls_step act x with hsame | ⟨hnew, _⟩ | ⟨_, hleft⟩
      · rw [hsame]
        exact hbegun
      · exact absurd hnew (Nat.ne_of_lt hcreated)
      · exact hleft

theorem attend_snoc (settings : ControlSettings) (acts : List Act) (act : Act) :
    attend settings (acts ++ [act]) = (attend settings acts).step act := by
  rw [attend, List.foldl_append, ← attend]
  rfl

theorem calls_of_unknown (settings : ControlSettings) (acts : List Act) :
    ∀ x, (attend settings acts).created ≤ x → (attend settings acts).calls x = none := by
  induction acts using List.reverseRecOn with
  | nil =>
      exact fun _ _ => rfl
  | append_singleton acts act ih =>
      rw [attend_snoc]
      generalize attend settings acts = a at ih ⊢
      intro x hx
      have hnone := ih x (Nat.le_trans (a.created_step_le act) hx)
      rcases a.calls_step act x with hsame | ⟨hnew, hlt⟩ | ⟨hleft, _⟩
      · exact hsame.trans hnone
      · exact absurd (Nat.lt_of_lt_of_le hlt hx) (Nat.not_lt_of_le (Nat.le_of_eq hnew))
      · exact hleft hnone

theorem Waits.begun {settings : ControlSettings} {acts : List Act}
    (h : (attend settings acts).Waits who) : (attend settings acts).Begun who := by
  cases who with
  | pass p =>
      trivial
  | client x =>
      rcases h with ⟨task, hcall⟩
      constructor
      · by_contra hunknown
        rw [calls_of_unknown settings acts x (Nat.le_of_not_lt hunknown)] at hcall
        cases hcall
      · intro request hcreated
        rw [hcall] at hcreated
        cases hcreated

def moves (a : Attended) : Act → List Move
  | .poll x =>
      match a.calls x with
      | some (.created request) => [request.move]
      | _ => []
  | .move move => [move]
  | _ => []

theorem fleet_step (a : Attended) {act : Act} (hact : ∀ p, act ≠ .drop (.pass p)) :
    (a.step act).fleet = (a.moves act).foldl Fleet.step a.fleet := by
  cases act with
  | create request =>
      rfl
  | drop caller =>
      cases caller with
      | client x =>
          rfl
      | pass p =>
          exact absurd rfl (hact p)
  | move move =>
      cases move <;> rfl
  | poll x =>
      rw [step, poll, moves]
      split
      next hcall =>
        rw [hcall]
        rfl
      next hcall =>
        rw [hcall]
        rfl
      next hcall =>
        rw [hcall]
        rfl
      next hcall =>
        rw [hcall]
        split <;> rfl

/-- With its clients a fleet does nothing that it does not do in a run of its own, unless passes are dropped. -/
theorem exists_run_of_attend (settings : ControlSettings) {acts : List Act}
    (h : ∀ p, .drop (.pass p) ∉ acts) : ∃ moves, (attend settings acts).fleet = run settings moves := by
  induction acts using List.reverseRecOn with
  | nil =>
      exact ⟨[], rfl⟩
  | append_singleton acts act ih =>
      rcases ih fun p hmem => h p (List.mem_append_left _ hmem) with ⟨moves, hfleet⟩
      refine ⟨moves ++ (attend settings acts).moves act, ?_⟩
      have hact : ∀ p, act ≠ .drop (.pass p) := by
        intro p hsame
        exact h p (List.mem_append_right _ (List.mem_singleton.mpr hsame.symm))
      rw [attend_snoc, fleet_step _ hact, run_append, hfleet]

end Attended

/-!
# Two runs
-/

theorem Unnoticed.refl (who : Caller) (a : Attended) : Unnoticed who a a :=
  ⟨⟨rfl, rfl, rfl, rfl, fun _ _ => rfl⟩, fun _ _ => rfl, rfl⟩

theorem Unnoticed.own (h : Unnoticed (.client x) a b) (call call' : Option Call) :
    Unnoticed (.client x) { a with calls := Function.update a.calls x call }
      { b with calls := Function.update b.calls x call' } := by
  refine ⟨h.fleet, ?_, h.created⟩
  intro y hy
  have hne : y ≠ x := fun hsame => hy (congrArg Caller.client hsame.symm)
  exact (Function.update_of_ne hne _ _).trans ((h.calls y hy).trans (Function.update_of_ne hne _ _).symm)

theorem Unnoticed.update (h : Unnoticed who a b) (x : Nat) (call : Option Call) :
    Unnoticed who { a with calls := Function.update a.calls x call }
      { b with calls := Function.update b.calls x call } := by
  refine ⟨h.fleet, ?_, h.created⟩
  intro y hy
  simp only [Function.update_apply, h.calls y hy]

theorem Unnoticed.drop (h : Unnoticed who a b) (caller : Caller) :
    Unnoticed who (a.drop caller) (b.drop caller) := by
  cases caller with
  | client x =>
      exact h.update x none
  | pass p =>
      refine ⟨⟨h.fleet.controller, h.fleet.placed, h.fleet.tasks, h.fleet.next, ?_⟩, h.calls, h.created⟩
      intro q hq
      simp only [Attended.drop, Function.update_apply, h.fleet.passes q hq]

theorem unnoticed_drop (who : Caller) (a : Attended) : Unnoticed who (a.drop who) a := by
  cases who with
  | client x =>
      have hown := (Unnoticed.refl (.client x) a).own none (a.calls x)
      rw [Function.update_eq_self] at hown
      exact hown
  | pass p =>
      refine ⟨⟨rfl, rfl, rfl, rfl, ?_⟩, fun _ _ => rfl, rfl⟩
      intro q hq
      exact Function.update_of_ne (fun hsame => hq (congrArg Caller.pass hsame.symm)) _ _

theorem Unnoticed.begin (h : Unnoticed who a b) (x : Nat) (request : Request) :
    Unnoticed who (a.begin x request) (b.begin x request) := by
  have hfleet : AlikeBut (fun p => who = .pass p) (a.fleet.step request.move) (b.fleet.step request.move) := by
    apply h.fleet.step
    intro p _ hmove
    cases request <;> cases hmove
  have hbegun : Unnoticed who { a with fleet := a.fleet.step request.move }
      { b with fleet := b.fleet.step request.move } :=
    ⟨hfleet, h.calls, h.created⟩
  rw [Attended.begin, Attended.begin, h.fleet.controller, h.fleet.next]
  exact hbegun.update x _

theorem Unnoticed.poll (h : Unnoticed who a b) (ha : a.Begun who) (hb : b.Begun who) (x : Nat) :
    Unnoticed who (a.poll x) (b.poll x) := by
  by_cases hx : who = .client x
  · subst hx
    rcases Attended.poll_of_begun ha.right with ⟨call, _, hpolled⟩
    rcases Attended.poll_of_begun hb.right with ⟨call', _, hpolled'⟩
    rw [hpolled, hpolled']
    exact h.own call call'
  · rw [Attended.poll, Attended.poll, h.calls x hx, h.fleet.tasks]
    split
    next =>
      exact h
    next =>
      exact h
    next request _ =>
      exact h.begin x request
    next =>
      split
      next =>
        exact h.update x _
      next =>
        exact h

/-- Both runs go on side by side, as long as no pass goes on that waits in one and is gone in the other. -/
theorem Unnoticed.step (h : Unnoticed who a b) (ha : a.Begun who) (hb : b.Begun who) {act : Act}
    (hact : ∀ p, who = .pass p → act ≠ .move (.goPass p)) : Unnoticed who (a.step act) (b.step act) := by
  cases act with
  | create request =>
      have hcreated := h.update b.created (some (.created request))
      rw [Attended.step, Attended.step, h.created]
      exact ⟨hcreated.fleet, hcreated.calls, rfl⟩
  | poll x =>
      exact h.poll ha hb x
  | drop caller =>
      exact h.drop caller
  | move move =>
      have hfleet : AlikeBut (fun p => who = .pass p) (a.fleet.step move) (b.fleet.step move) :=
        h.fleet.step fun p hp hmove => hact p hp (congrArg Act.move hmove)
      cases move with
      | restart settings =>
          exact ⟨hfleet, fun _ _ => rfl, h.created⟩
      | _ =>
          exact ⟨hfleet, h.calls, h.created⟩

theorem Unnoticed.sends_eq (h : Unnoticed who a b) (act : Act) : a.sends act = b.sends act := by
  cases act with
  | move move =>
      cases move with
      | go t env replies =>
          exact h.fleet.sends_eq t _
      | _ =>
          rfl
  | _ =>
      rfl

theorem Unnoticed.events_eq (h : Unnoticed who a b) : a.fleet.events = b.fleet.events := by
  rw [Fleet.events, Fleet.events, h.fleet.controller]

theorem Unnoticed.run (h : Unnoticed who a b) (ha : a.Begun who) (hb : b.Begun who) {acts : List Act}
    (hacts : ∀ p, who = .pass p → .move (.goPass p) ∉ acts) :
    Unnoticed who (acts.foldl Attended.step a) (acts.foldl Attended.step b) ∧ a.log acts = b.log acts := by
  induction acts generalizing a b with
  | nil =>
      exact ⟨h, rfl⟩
  | cons act rest ih =>
      have hstep : Unnoticed who (a.step act) (b.step act) := by
        apply h.step ha hb
        intro p hp hact
        exact hacts p hp (hact ▸ List.mem_cons_self)
      have hrest : ∀ p, who = .pass p → .move (.goPass p) ∉ rest := fun p hp hmem =>
        hacts p hp (List.mem_cons_of_mem _ hmem)
      rcases ih hstep (ha.step act) (hb.step act) hrest with ⟨hend, hlog⟩
      refine ⟨hend, ?_⟩
      rw [Attended.log, Attended.log, hlog, h.sends_eq, Attended.publishes, Attended.publishes,
        h.events_eq, hstep.events_eq]

theorem Attended.Begun.drop (h : a.Begun who) : (a.drop who).Begun who :=
  h.step (.drop who)

/-- It is noticed by nobody if a caller that waits is dropped.  After everything that happens later the
controller is as it is where the caller goes on waiting (its records, marks of launches, database, numbers,
hosts and feed), and so are all tasks and all others who wait; and with every act the same calls are sent to
agents and the same events published. -/
theorem abandoned_caller_goes_unnoticed (settings : ControlSettings) (before later : List Act)
    {who : Caller} (hwaits : (attend settings before).Waits who)
    (hlater : ∀ p, who = .pass p → .move (.goPass p) ∉ later) :
    Unnoticed who (attend settings (before ++ .drop who :: later)) (attend settings (before ++ later)) ∧
      (attend settings (before ++ [.drop who])).log later = (attend settings before).log later := by
  have hrun := (unnoticed_drop who (attend settings before)).run hwaits.begun.drop hwaits.begun hlater
  have hdropped : attend settings (before ++ .drop who :: later) =
      later.foldl Attended.step ((attend settings before).drop who) := by
    rw [attend, List.foldl_append, ← attend]
    rfl
  have hkept : attend settings (before ++ later) = later.foldl Attended.step (attend settings before) := by
    rw [attend, List.foldl_append, ← attend]
  rw [hdropped, hkept, Attended.attend_snoc]
  exact hrun

/-- A call that is dropped before it has begun has done nothing, and does nothing any more. -/
example : (attend Overlap.settings [.create (.order (.start "lobby" .api)), .poll 0]).fleet.next = 1 ∧
    (attend Overlap.settings
      [.create (.order (.start "lobby" .api)), .drop (.client 0), .poll 0]).fleet.next = 0 :=
  ⟨rfl, rfl⟩

def Attended.task? (a : Attended) (x : Nat) : Option Nat :=
  match a.calls x with
  | some (.waiting task) => some task
  | _ => none

theorem Attended.waits_of_task? {task : Nat} (h : a.task? x = some task) : a.Waits (.client x) := by
  rw [task?] at h
  split at h
  next found hcall =>
    exact ⟨found, hcall⟩
  next =>
    cases h

namespace Abandoned

open Overlap

def before : List Act := [
  .move (.weather [group] true fun _ => none),
  .create (.order (.attach host)),
  .poll 0,
  .move (.go 0 ⟨noon, server⟩ []),
  .poll 0,
  .create (.order (.start "lobby" .api)),
  .poll 1,
  .move (.go 1 ⟨noon, server⟩ [])]

def later : List Act :=
  [.move (.go 1 ⟨noon, Id.ofNat 8⟩ [⟨.ok answer, noon⟩]), .poll 1]

end Abandoned

open Abandoned Overlap in
theorem abandoned_caller_goes_unnoticed_start :
    (attend settings before).Waits (.client 1) ∧
      (attend settings (before ++ .drop (.client 1) :: later)).fleet.controller =
        (attend settings (before ++ later)).fleet.controller ∧
      (attend settings (before ++ .drop (.client 1) :: later)).fleet.controller.store.get? server =
        some answer ∧
      (attend settings (before ++ [.drop (.client 1)])).log later = (attend settings before).log later := by
  have hwaits : (attend settings before).Waits (.client 1) :=
    @Attended.waits_of_task? _ _ 1 (by decide +kernel)
  have hunnoticed := @abandoned_caller_goes_unnoticed settings before later (.client 1) hwaits
    fun p hp => nomatch hp
  exact ⟨hwaits, hunnoticed.left.fleet.controller, by decide +kernel, hunnoticed.right⟩

end Fleet
end ServerFleet
