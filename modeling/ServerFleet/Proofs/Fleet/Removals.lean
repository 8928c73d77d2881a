import ServerFleet.Proofs.Fleet.Departures
import ServerFleet.Proofs.Fleet.Hosts

/-!
# Records that are taken away

Besides the moves of a fleet a record may be taken out of the store behind its back.
Numbers are then held for nobody, so the books need not be in order, but the store
stays consistent: every step leads it on by writes, and only a start brings a record
that was not there.
-/

namespace ServerFleet

namespace Store

/-- One store comes out of another by writes: it is consistent if the other is, and it has only records of
servers that were there or are among some new ones. -/
def Leads (st st' : Store) (new : List ServerId) : Prop :=
  st.Consistent → st'.Consistent ∧ ∀ id ∈ ids st'.index, id ∈ ids st.index ∨ id ∈ new

variable {st st' st'' : Store} {new : List ServerId} {s r : Server} {id : ServerId}

theorem Leads.refl (st : Store) (new : List ServerId) : st.Leads st new :=
  fun h => ⟨h, fun _ hid => Or.inl hid⟩

theorem Leads.trans (h : st.Leads st' new) (h' : st'.Leads st'' new) : st.Leads st'' new := by
  intro hst
  rcases h hst with ⟨hst', hids⟩
  rcases h' hst' with ⟨hst'', hids'⟩
  refine ⟨hst'', ?_⟩
  intro id hid
  rcases hids' id hid with hid | hnew
  · exact hids id hid
  · exact Or.inr hnew

theorem Leads.of_eq (htable : st'.database.hasServers = st.database.hasServers)
    (hservers : st'.database.servers = st.database.servers) (hindex : st'.index = st.index)
    (new : List ServerId) : st.Leads st' new := by
  intro h
  constructor
  · constructor
    case table =>
      rw [htable]
      exact h.table
    case rows =>
      rw [hservers, hindex]
      exact h.rows
    case nodup =>
      rw [hindex]
      exact h.nodup
    case places =>
      rw [hindex]
      exact h.places
  · intro id hid
    rw [hindex] at hid
    exact Or.inl hid

theorem leads_endLaunch (st : Store) (id : ServerId) (new : List ServerId) :
    st.Leads (st.endLaunch id) new := by
  apply Leads.of_eq
  all_goals
    rfl

theorem leads_beginLaunch (st : Store) (id : ServerId) (new : List ServerId) :
    st.Leads (st.beginLaunch id) new := by
  rw [beginLaunch]
  split
  next =>
    exact .refl st new
  next =>
    apply Leads.of_eq
    all_goals
      rfl

theorem leads_save (h : st.save s = .ok st') : st.Leads st' [s.id] := by
  intro hst
  rcases hst.save_eq_ok_iff.mp h with ⟨_, hplace, rfl⟩
  refine ⟨hst.stored hplace, ?_⟩
  intro id hid
  rcases (ids_stored s id).mp hid with hnew | hold
  · exact Or.inr (List.mem_singleton.mpr hnew)
  · exact Or.inl hold

theorem leads_replace (h : st.replace s = .ok (some st')) (new : List ServerId) :
    st.Leads st' new := by
  intro hst
  rcases replace_eq_some_iff.mp h with ⟨hmem, hsave⟩
  rcases leads_save hsave hst with ⟨hst', hids⟩
  refine ⟨hst', ?_⟩
  intro id hid
  rcases hids id hid with hold | hnew
  · exact Or.inl hold
  · exact Or.inl (List.mem_singleton.mp hnew ▸ hmem)

theorem leads_remove (h : st.remove id = .ok (some (r, st'))) (new : List ServerId) :
    st.Leads st' new := by
  intro hst
  rcases hst.remove_eq_some_iff.mp h with ⟨_, _, rfl⟩
  exact ⟨hst.without id, fun other hother => Or.inl ((ids_without id other).mp hother).left⟩

end Store

namespace Controller

variable {c : Controller} {env : Env}

/-!
# What the steps of a controller write
-/

theorem leads_place (c : Controller) (env : Env) (g : Group) (host : Host) (cause : Cause) :
    c.store.Leads (c.place env g host cause).1.store [env.serverId] := by
  have hbegin := c.store.leads_beginLaunch env.serverId [env.serverId]
  rw [place]
  simp only
  split
  next =>
    exact hbegin.trans (Store.leads_endLaunch _ _ _)
  next hsave =>
    exact hbegin.trans (Store.leads_save hsave)

theorem leads_beginStart (c : Controller) (env : Env) (group : String) (cause : Cause) :
    c.store.Leads (c.beginStart env group cause).1.store [env.serverId] := by
  rw [beginStart]
  split
  next =>
    exact .refl _ _
  next =>
    exact .refl _ _
  next =>
    split
    next =>
      exact .refl _ _
    next =>
      split
      next =>
        exact .refl _ _
      next =>
        exact c.leads_place env _ _ cause

theorem leads_begin (c : Controller) (env : Env) (order : Order) :
    c.store.Leads (c.begin env order).1.store [env.serverId] := by
  cases order with
  | start group cause =>
      exact c.leads_beginStart env group cause
  | stop id cause =>
      exact .refl _ _
  | attach host =>
      rw [begin, beginAttach]
      simp only
      split
      next =>
        exact .refl _ _
      next =>
        exact .refl _ _

theorem leads_rollBack (c : Controller) (s : Server) : c.store.Leads (c.rollBack s).store [] := by
  rw [rollBack]
  split
  next hremove =>
    exact Store.leads_remove hremove []
  next =>
    exact .refl _ _
  next =>
    exact .refl _ _

theorem leads_commit (c : Controller) (env : Env) (l : Launch) (m : Server) :
    c.store.Leads (c.commit env l m).1.store [] := by
  rw [commit]
  split
  next hreplace =>
    exact (Store.leads_replace hreplace []).trans (Store.leads_endLaunch _ _ _)
  next =>
    exact .refl _ _
  next =>
    exact .refl _ _

theorem leads_resumeStart (c : Controller) (env : Env) (work : StartWork) (answer : Answer) :
    c.store.Leads (c.resumeStart env work answer).1.store [] := by
  cases work with
  | launching l =>
      rw [resumeStart]
      split
      next =>
        exact c.leads_commit env l _
      next =>
        exact (c.leads_rollBack _).trans (Store.leads_endLaunch _ _ _)
  | undoing u =>
      rw [resumeStart]
      split
      next =>
        exact Store.leads_endLaunch _ _ _
      next =>
        exact (c.leads_rollBack _).trans (Store.leads_endLaunch _ _ _)

theorem leads_finishStop (c : Controller) (env : Env) (k : Stopping) (answer : Answer) :
    c.store.Leads (c.finishStop env k answer).1.store [] := by
  cases answer with
  | error e =>
      exact .refl _ _
  | ok theirs =>
      rw [finishStop]
      split
      next =>
        exact .refl _ _
      next =>
        exact .refl _ _
      next hremove =>
        exact Store.leads_remove hremove []

theorem leads_purge (c : Controller) (env : Env) (id : ServerId) :
    c.store.Leads (c.purge env id).1.store [] := by
  rw [purge]
  split
  next hremove =>
    exact Store.leads_remove hremove []
  next =>
    exact .refl _ _
  next =>
    exact .refl _ _

theorem leads_settle (c : Controller) (env : Env) (report : Report) (s : Server) (reply : Reply) :
    c.store.Leads (c.settle env report s reply).1.store [] := by
  rw [settle]
  split
  next =>
    split
    next hreplace =>
      exact Store.leads_replace hreplace []
    next =>
      exact .refl _ _
    next =>
      exact .refl _ _
  next =>
    have hpurge := c.leads_purge env s.id
    split
    all_goals
      next heq =>
        rw [heq] at hpurge
        exact hpurge

theorem leads_settleAll (env : Env) (report : Report) (pairs : List (Server × Reply)) :
    c.store.Leads (c.settleAll env report pairs).1.store [] := by
  induction pairs generalizing c report with
  | nil =>
      exact .refl _ _
  | cons p rest ih =>
      exact (c.leads_settle env report p.1 p.2).trans (ih _)

theorem leads_resume (c : Controller) (env : Env) (job : Job) (replies : List Reply) :
    c.store.Leads (c.resume env job replies).1.store [] := by
  cases job with
  | start work =>
      exact c.leads_resumeStart env work _
  | stop k =>
      exact c.leads_finishStop env k _
  | attach sweep =>
      exact leads_settleAll env .empty _

theorem leads_assemble {settings : ControlSettings} {st : Store}
    (h : assemble settings st.database = .ok c) : st.Leads c.store [] := by
  intro hst
  rw [assemble, hst.load_eq] at h
  cases h
  refine ⟨hst.loaded, ?_⟩
  intro id hid
  exact Or.inl ((st.perm_all.map Server.id).mem_iff.mp hid)

theorem leads_update (c : Controller) (env : Env) (id : ServerId) (change : Server → Server) :
    c.store.Leads (c.update env id change).1.store [] := by
  rw [update]
  split
  next =>
    exact .refl _ _
  next =>
    simp only
    split
    next =>
      exact .refl _ _
    next =>
      exact .refl _ _
    next hreplace =>
      exact Store.leads_replace hreplace []

/-!
# Steps that wait
-/

theorem launching_of_place {g : Group} {host : Host} {cause : Cause} {work : StartWork}
    (h : (c.place env g host cause).2 = .waiting work) :
    ∃ l, work = .launching l ∧ l.provisional.id = env.serverId := by
  rw [place] at h
  simp only at h
  split at h
  next =>
    cases h
  next =>
    cases h
    exact ⟨_, rfl, rfl⟩

theorem launching_of_beginStart {group : String} {cause : Cause} {work : StartWork}
    (h : (c.beginStart env group cause).2 = .waiting work) :
    ∃ l, work = .launching l ∧ l.provisional.id = env.serverId := by
  rw [beginStart] at h
  split at h
  next =>
    cases h
  next =>
    cases h
  next =>
    split at h
    next =>
      cases h
    next =>
      split at h
      next =>
        cases h
      next =>
        exact launching_of_place h

theorem launching_of_begin {order : Order} {work : StartWork}
    (h : (c.begin env order).2 = .waiting (.start work)) :
    ∃ l, work = .launching l ∧ l.provisional.id = env.serverId := by
  cases order with
  | start group cause =>
      have hlift : (c.beginStart env group cause).2.lift Job.start Outcome.server =
        .waiting (.start work) := h
      cases hstart : (c.beginStart env group cause).2 with
      | done result =>
          rw [hstart] at hlift
          cases hlift
      | waiting begun =>
          rw [hstart] at hlift
          cases hlift
          exact launching_of_beginStart hstart
  | stop id cause =>
      have hlift : (c.beginStop id cause).lift Job.stop Outcome.server = .waiting (.start work) := h
      cases hstop : c.beginStop id cause with
      | done result =>
          rw [hstop] at hlift
          cases hlift
      | waiting k =>
          rw [hstop] at hlift
          cases hlift
  | attach host =>
      have hlift : (c.beginAttach host).2.lift Job.attach (Outcome.attached host) =
        .waiting (.start work) := h
      cases hattach : (c.beginAttach host).2 with
      | done report =>
          rw [hattach] at hlift
          cases hlift
      | waiting sweep =>
          rw [hattach] at hlift
          cases hlift

theorem commit_outcome (c : Controller) (env : Env) (l : Launch) (m : Server) :
    (∃ st, c.store.replace m = .ok (some st) ∧
        (c.commit env l m).2 = .done (.ok m) ∧
        (c.commit env l m).1.store = st.endLaunch l.provisional.id ∧
        (c.commit env l m).1.feed.events = c.feed.events ++ [.start m l.cause env.now]) ∨
      ∃ failure, c.commit env l m = (c, .waiting (.undoing ⟨l.host, l.provisional, m, failure⟩)) ∧
        (failure = none → m.id ∉ Store.ids c.store.index) := by
  rw [commit]
  cases hreplace : c.store.replace m with
  | error e =>
      exact Or.inr ⟨some e, rfl, fun hnone => absurd hnone (Option.some_ne_none e)⟩
  | ok found =>
      cases found with
      | none =>
          exact Or.inr ⟨none, rfl, fun _ => Store.replace_eq_none_iff.mp hreplace⟩
      | some st =>
          exact Or.inl ⟨st, rfl, rfl, rfl, Feed.events_publish c.feed eventTopic _ env.now⟩

theorem undoing_of_resume {job job' : Job} {replies : List Reply}
    (h : (c.resume env job replies).2 = .waiting job') :
    ∃ l m failure, job = .start (.launching l) ∧ m.id = l.provisional.id ∧
      c.resume env job replies =
        (c, .waiting (.start (.undoing ⟨l.host, l.provisional, m, failure⟩))) ∧
      (failure = none → m.id ∉ Store.ids c.store.index) := by
  cases job with
  | start work =>
      cases work with
      | launching l =>
          rw [resume, resumeStart] at h ⊢
          cases hmerged : (single replies).bind fun theirs => l.provisional.merge theirs env.now with
          | error e =>
              rw [hmerged] at h
              cases h
          | ok m =>
              rw [hmerged] at h
              have hlift : (c.commit env l m).2.lift Job.start Outcome.server = .waiting job' := h
              rcases c.commit_outcome env l m with ⟨_, _, hcommit, _, _⟩ | ⟨failure, hcommit, hgone⟩
              · rw [hcommit] at hlift
                cases hlift
              · refine ⟨l, m, failure, rfl, Server.id_of_identity (Server.identity_of_bind hmerged), ?_,
                  hgone⟩
                simp only [hcommit]
                rfl
      | undoing u =>
          rw [resume, resumeStart] at h
          cases hfailure : u.failure with
          | none =>
              rw [hfailure] at h
              cases h
          | some e =>
              rw [hfailure] at h
              cases h
  | stop k =>
      cases h
  | attach sweep =>
      cases h

end Controller

namespace Fleet

/-!
# Behind the back of the fleet
-/

/-- What can happen besides the moves of a fleet: a record is taken out of the store. -/
inductive Incident where
  | move (move : Move)
  | removal (id : ServerId)

/-- Takes a record out of the store, with its row; its number stays held. -/
def strip (w : Fleet) (id : ServerId) : Fleet :=
  match w.controller.store.remove id with
  | .ok (some (_, store)) => { w with controller.store := store }
  | .ok none => w
  | .error _ => w

def undergo (w : Fleet) : Incident → Fleet
  | .move move => w.step move
  | .removal id => w.strip id

def course (settings : ControlSettings) (incidents : List Incident) : Fleet :=
  incidents.foldl undergo (fresh settings)

def turn? (w : Fleet) (t : Nat) (env : Env) (replies : List Reply) :
    Option (Order × Controller × Progress Job Outcome) :=
  match w.tasks t with
  | none => none
  | some ⟨_, .ended _⟩ => none
  | some ⟨order, .ordered⟩ =>
      if (w.placed.map Identity.id).contains env.serverId then none
      else some (order, w.controller.begin env order)
  | some ⟨order, .asking job⟩ =>
      if replies.length = job.calls.length then some (order, w.controller.resume env job replies) else none

def stepOf? (w : Fleet) (t : Nat) : Incident → Option (Order × Controller × Progress Job Outcome)
  | .move (.go u env replies) => if u = t then w.turn? t env replies else none
  | _ => none

/-- What an incident does to a fleet if no task makes a step with it. -/
structure Aside (w w' : Fleet) : Prop where
  store : w.controller.store.Leads w'.controller.store []
  placed : w'.placed = w.placed
  next : w.next ≤ w'.next
  tasks : ∀ t task, w'.tasks t = some task →
    w.tasks t = some task ∨ (w.next ≤ t ∧ t < w'.next) ∧ task.stage = .ordered

/-- The fleet as far as it is in order when records may be taken out of the store. -/
structure Orderly (w : Fleet) : Prop where
  store : w.controller.store.Consistent
  bound : ∀ t, w.next ≤ t → w.tasks t = none
  placed : ∀ t order work, w.tasks t = some ⟨order, .asking (.start work)⟩ →
    work.provisional.id ∈ w.placed.map Identity.id
  gone : ∀ t order u, w.tasks t = some ⟨order, .asking (.start (.undoing u))⟩ → u.failure = none →
    u.provisional.id ∉ Store.ids w.controller.store.index

variable {w w' : Fleet} {t : Nat} {i : Incident} {order : Order} {c : Controller}
  {p : Progress Job Outcome} {task : Task}

/-!
# Incidents
-/

theorem course_append (settings : ControlSettings) (incidents more : List Incident) :
    course settings (incidents ++ more) = more.foldl undergo (course settings incidents) := by
  rw [course, List.foldl_append, ← course]

theorem course_snoc (settings : ControlSettings) (incidents : List Incident) (i : Incident) :
    course settings (incidents ++ [i]) = (course settings incidents).undergo i :=
  course_append settings incidents [i]

theorem go_eq (w : Fleet) (t : Nat) (env : Env) (replies : List Reply) :
    w.go t env replies =
      match w.turn? t env replies with
      | some (order, step) => w.advance t order step
      | none => w := by
  rw [go, turn?]
  cases w.tasks t with
  | none =>
      rfl
  | some task =>
      cases task with
      | mk order stage =>
          cases stage with
          | ordered =>
              by_cases hused : env.serverId ∈ w.placed.map Identity.id
              · simp only [List.contains_iff_mem, if_pos hused]
              · simp only [List.contains_iff_mem, if_neg hused]
          | asking job =>
              by_cases hlength : replies.length = job.calls.length
              · simp only [if_pos hlength]
              · simp only [if_neg hlength]
          | ended outcome =>
              rfl

theorem stepOf?_eq_some (h : w.stepOf? t i = some (order, c, p)) :
    ∃ env replies, i = .move (.go t env replies) ∧
      (w.tasks t = some ⟨order, .ordered⟩ ∧ env.serverId ∉ w.placed.map Identity.id ∧
          w.controller.begin env order = (c, p) ∨
        ∃ job, w.tasks t = some ⟨order, .asking job⟩ ∧
          w.controller.resume env job replies = (c, p)) := by
  unfold stepOf? at h
  split at h
  next env replies =>
    split at h
    next hu =>
      subst hu
      refine ⟨env, replies, rfl, ?_⟩
      unfold turn? at h
      split at h
      next =>
        cases h
      next =>
        cases h
      next htask =>
        split at h
        next =>
          cases h
        next hfresh =>
          rcases Prod.mk.inj (Option.some.inj h) with ⟨rfl, hbegin⟩
          exact Or.inl ⟨htask, fun hused => hfresh (List.contains_iff_mem.mpr hused), hbegin⟩
      next htask =>
        split at h
        next =>
          rcases Prod.mk.inj (Option.some.inj h) with ⟨rfl, hresume⟩
          exact Or.inr ⟨_, htask, hresume⟩
        next =>
          cases h
    next =>
      cases h
  next =>
    cases h

theorem undergo_of_stepOf? (h : w.stepOf? t i = some (order, c, p)) :
    w.undergo i = w.advance t order (c, p) := by
  rcases stepOf?_eq_some h with ⟨env, replies, rfl, _⟩
  rw [stepOf?, if_pos rfl] at h
  rw [undergo, Fleet.step, go_eq, h]

/-!
# Incidents without a step
-/

theorem Aside.refl (w : Fleet) : w.Aside w where
  store := .refl _ _
  placed := rfl
  next := Nat.le_refl _
  tasks := fun _ _ h => Or.inl h

theorem Aside.withController {controller : Controller}
    (h : w.controller.store.Leads controller.store []) : w.Aside { w with controller } where
  store := h
  placed := rfl
  next := Nat.le_refl _
  tasks := fun _ _ h => Or.inl h

theorem Aside.withPasses (h : w.Aside w') (passes : Nat → Option PassStage) :
    w.Aside { w' with passes } where
  store := h.store
  placed := h.placed
  next := h.next
  tasks := h.tasks

theorem aside_spawn (w : Fleet) (ordered : Order) : w.Aside (w.spawn ordered) where
  store := .refl _ _
  placed := rfl
  next := Nat.le_succ _
  tasks := by
    intro t task h
    rcases of_tasks_spawn h with hsame | ⟨rfl, rfl⟩
    · exact Or.inl hsame
    · exact Or.inr ⟨⟨Nat.le_refl _, Nat.lt_succ_self _⟩, rfl⟩

theorem aside_advancePass (w : Fleet) (p : Nat) (progress : Progress Pass PassStats) :
    w.Aside (w.advancePass p progress) := by
  cases progress with
  | done stats =>
      exact (Aside.refl w).withPasses _
  | waiting pass =>
      exact (w.aside_spawn pass.order).withPasses _

theorem aside_goPass (w : Fleet) (p : Nat) : w.Aside (w.goPass p) := by
  rw [goPass]
  split
  next =>
    exact .refl w
  next =>
    exact .refl w
  next =>
    split
    next =>
      exact (Aside.refl w).withPasses _
    next =>
      exact w.aside_advancePass p _
  next =>
    split
    next =>
      exact w.aside_advancePass p _
    next =>
      exact .refl w

theorem aside_restart (w : Fleet) (settings : ControlSettings) : w.Aside (w.restart settings) := by
  rw [restart]
  split
  next =>
    exact .refl w
  next c hassemble =>
    constructor
    case store =>
      exact Controller.leads_assemble hassemble
    case placed =>
      rfl
    case next =>
      exact Nat.le_refl _
    case tasks =>
      intro t task h
      cases h

theorem aside_strip (w : Fleet) (id : ServerId) : w.Aside (w.strip id) := by
  rw [strip]
  split
  next hremove =>
    exact .withController (Store.leads_remove hremove [])
  next =>
    exact .refl w
  next =>
    exact .refl w

theorem undergo_cases (w : Fleet) (i : Incident) :
    (∃ t order c p, w.stepOf? t i = some (order, c, p)) ∨
      (∀ t, w.stepOf? t i = none) ∧ w.Aside (w.undergo i) := by
  cases i with
  | removal id =>
      exact Or.inr ⟨fun _ => rfl, w.aside_strip id⟩
  | move move =>
      cases move with
      | go u env replies =>
          cases hturn : w.turn? u env replies with
          | some found =>
              rcases found with ⟨order, c, p⟩
              refine Or.inl ⟨u, order, c, p, ?_⟩
              rw [stepOf?, if_pos rfl, hturn]
          | none =>
              refine Or.inr ⟨?_, ?_⟩
              · intro t
                rw [stepOf?]
                split
                next hu =>
                  exact hu ▸ hturn
                next =>
                  rfl
              · rw [undergo, Fleet.step, go_eq, hturn]
                exact .refl w
      | order ordered =>
          exact Or.inr ⟨fun _ => rfl, w.aside_spawn ordered⟩
      | stopNumber group number cause =>
          refine Or.inr ⟨fun _ => rfl, ?_⟩
          rw [undergo, Fleet.step]
          split
          next =>
            exact .refl w
          next =>
            exact w.aside_spawn _
      | orderPass =>
          exact Or.inr ⟨fun _ => rfl, ⟨.refl _ _, rfl, Nat.le_succ _, fun _ _ h => Or.inl h⟩⟩
      | goPass p =>
          exact Or.inr ⟨fun _ => rfl, w.aside_goPass p⟩
      | setState env id state =>
          exact Or.inr ⟨fun _ => rfl, .withController (w.controller.leads_update env id _)⟩
      | setProperty env id key value =>
          exact Or.inr ⟨fun _ => rfl, .withController (w.controller.leads_update env id _)⟩
      | weather groups hasGroups refusal =>
          refine Or.inr ⟨fun _ => rfl, .withController ?_⟩
          apply Store.Leads.of_eq
          all_goals
            rfl
      | restart settings =>
          exact Or.inr ⟨fun _ => rfl, w.aside_restart settings⟩

theorem of_tasks_undergo (hstep : w.stepOf? t i = none) (h : (w.undergo i).tasks t = some task) :
    w.tasks t = some task ∨ w.next ≤ t ∧ task.stage = .ordered := by
  rcases w.undergo_cases i with ⟨u, order, c, p, hu⟩ | ⟨_, haside⟩
  · rw [undergo_of_stepOf? hu] at h
    rcases of_tasks_advance h with hsame | ⟨rfl, _⟩
    · exact Or.inl hsame
    · rw [hu] at hstep
      cases hstep
  · rcases haside.tasks t task h with hsame | ⟨hnew, hordered⟩
    · exact Or.inl hsame
    · exact Or.inr ⟨hnew.left, hordered⟩

theorem next_undergo (w : Fleet) (i : Incident) : w.next ≤ (w.undergo i).next := by
  rcases w.undergo_cases i with ⟨u, order, c, p, hu⟩ | ⟨_, haside⟩
  · rw [undergo_of_stepOf? hu]
    exact Nat.le_refl _
  · exact haside.next

/-!
# What every course keeps
-/

theorem mem_placed_advance {t : Nat} {order : Order} {step : Controller × Progress Job Outcome}
    {id : ServerId} (h : id ∈ w.placed.map Identity.id) :
    id ∈ (w.advance t order step).placed.map Identity.id := by
  rw [advance, List.map_append]
  exact List.mem_append_right _ h

/-- No server is stored again under an identifier that was used before. -/
theorem Orderly.absent (h : w.Orderly) {new : List ServerId} {id : ServerId}
    (hleads : w.controller.store.Leads w'.controller.store new)
    (hnew : id ∉ new) (habsent : id ∉ Store.ids w.controller.store.index) :
    id ∉ Store.ids w'.controller.store.index := by
  intro hmem
  rcases (hleads h.store).right id hmem with hold | hin
  · exact habsent hold
  · exact hnew hin

theorem Orderly.bound_advance (h : w.Orderly) (hold : w.tasks t = some task)
    (step : Controller × Progress Job Outcome) {u : Nat} (hu : w.next ≤ u) :
    (w.advance t order step).tasks u = none := by
  have hnone := h.bound u hu
  have hne : u ≠ t := by
    intro hsame
    rw [hsame, hold] at hnone
    cases hnone
  rw [tasks_advance, Function.update_of_ne hne]
  exact hnone

theorem Orderly.begin (h : w.Orderly) {env : Env} (hold : w.tasks t = some ⟨order, .ordered⟩)
    (hfresh : env.serverId ∉ w.placed.map Identity.id) :
    (w.advance t order (w.controller.begin env order)).Orderly := by
  have hleads := w.controller.leads_begin env order
  constructor
  case store =>
    exact (hleads h.store).left
  case bound =>
    intro u hu
    exact h.bound_advance hold _ hu
  case placed =>
    intro u order' work htask
    rcases of_tasks_advance htask with hsame | ⟨_, hnow⟩
    · exact mem_placed_advance (h.placed u order' work hsame)
    · have hwaiting := eq_waiting_of_stage (congrArg Task.stage hnow).symm
      rcases Controller.launching_of_begin hwaiting with ⟨l, rfl, _⟩
      rw [advance, hwaiting]
      exact List.mem_cons_self
  case gone =>
    intro u order' undo htask hfailure
    rcases of_tasks_advance htask with hsame | ⟨_, hnow⟩
    · have hplaced := h.placed u order' _ hsame
      refine h.absent hleads ?_ (h.gone u order' undo hsame hfailure)
      intro hnew
      exact hfresh (List.mem_singleton.mp hnew ▸ hplaced)
    · have hwaiting := eq_waiting_of_stage (congrArg Task.stage hnow).symm
      rcases Controller.launching_of_begin hwaiting with ⟨l, hl, _⟩
      cases hl

theorem Orderly.resume (h : w.Orderly) {job : Job} (hold : w.tasks t = some ⟨order, .asking job⟩)
    (env : Env) (replies : List Reply) :
    (w.advance t order (w.controller.resume env job replies)).Orderly := by
  have hleads := w.controller.leads_resume env job replies
  constructor
  case store =>
    exact (hleads h.store).left
  case bound =>
    intro u hu
    exact h.bound_advance hold _ hu
  case placed =>
    intro u order' work htask
    rcases of_tasks_advance htask with hsame | ⟨_, hnow⟩
    · exact mem_placed_advance (h.placed u order' work hsame)
    · have hwaiting := eq_waiting_of_stage (congrArg Task.stage hnow).symm
      rcases Controller.undoing_of_resume hwaiting with ⟨l, m, failure, rfl, _, hresume, _⟩
      rw [hresume] at hwaiting
      cases hwaiting
      exact mem_placed_advance (h.placed t order (.launching l) hold)
  case gone =>
    intro u order' undo htask hfailure
    rcases of_tasks_advance htask with hsame | ⟨_, hnow⟩
    · exact h.absent hleads List.not_mem_nil (h.gone u order' undo hsame hfailure)
    · have hwaiting := eq_waiting_of_stage (congrArg Task.stage hnow).symm
      rcases Controller.undoing_of_resume hwaiting with ⟨l, m, failure, rfl, hid, hresume, hgone⟩
      rw [hresume] at hwaiting
      cases hwaiting
      refine h.absent hleads List.not_mem_nil ?_
      rw [← hid]
      exact hgone hfailure

theorem Orderly.aside (h : w.Orderly) (haside : w.Aside w') : w'.Orderly := by
  have hwaits {t : Nat} {order : Order} {work : StartWork}
      (htask : w'.tasks t = some ⟨order, .asking (.start work)⟩) :
      w.tasks t = some ⟨order, .asking (.start work)⟩ := by
    rcases haside.tasks t _ htask with hsame | ⟨_, hordered⟩
    · exact hsame
    · cases hordered
  constructor
  case store =>
    exact (haside.store h.store).left
  case bound =>
    intro t ht
    rw [Option.eq_none_iff_forall_ne_some]
    intro task htask
    rcases haside.tasks t task htask with hsame | ⟨hnew, _⟩
    · rw [h.bound t (Nat.le_trans haside.next ht)] at hsame
      cases hsame
    · exact absurd hnew.right (Nat.not_lt_of_le ht)
  case placed =>
    intro t order work htask
    rw [haside.placed]
    exact h.placed t order work (hwaits htask)
  case gone =>
    intro t order undo htask hfailure
    exact h.absent haside.store List.not_mem_nil (h.gone t order undo (hwaits htask) hfailure)

theorem Orderly.undergo (h : w.Orderly) (i : Incident) : (w.undergo i).Orderly := by
  rcases w.undergo_cases i with ⟨t, order, c, p, hstep⟩ | ⟨_, haside⟩
  · rw [undergo_of_stepOf? hstep]
    rcases stepOf?_eq_some hstep with ⟨env, replies, _, ⟨hold, hfresh, hbegin⟩ | ⟨job, hold, hresume⟩⟩
    · rw [← hbegin]
      exact h.begin hold hfresh
    · rw [← hresume]
      exact h.resume hold env replies
  · exact h.aside haside

theorem orderly_fresh (settings : ControlSettings) : (fresh settings).Orderly where
  store := Store.consistent_empty rfl rfl
  bound := by
    intro t _
    rfl
  placed := by
    intro t order work htask
    cases htask
  gone := by
    intro t order u htask
    cases htask

theorem orderly_course (settings : ControlSettings) (incidents : List Incident) :
    (course settings incidents).Orderly := by
  induction incidents using List.reverseRecOn with
  | nil =>
      exact orderly_fresh settings
  | append_singleton incidents i ih =>
      rw [course_snoc]
      exact ih.undergo i

end Fleet
end ServerFleet
