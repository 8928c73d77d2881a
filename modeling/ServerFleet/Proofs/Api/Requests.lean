import ServerFleet.Proofs.Api.Access
import ServerFleet.Proofs.Fleet.Departures
import ServerFleet.Proofs.Fleet.Hosts

/-!
# A fleet behind the interface

Whatever a request asks for, it makes at most one move of the fleet: it gives an order, overrides
a record, or changes the table of groups.  So a fleet that is asked over HTTP is a fleet like any
other, and what holds of all runs holds of it.  In particular a host is only registered if it was
ordered, and if all orders come over HTTP then a request has described it.
-/

namespace ServerFleet

/-!
# Where hosts come from
-/

namespace Controller

theorem mem_putHost {h other : Host} {hosts : List Host} (hmem : other ∈ putHost h hosts) :
    other = h ∨ other ∈ hosts := by
  rw [putHost] at hmem
  split at hmem
  next =>
    rcases List.mem_map.mp hmem with ⟨x, hx, hsame⟩
    split at hsame
    next =>
      exact Or.inl hsame.symm
    next =>
      exact Or.inr (hsame ▸ hx)
  next =>
    rcases List.mem_append.mp hmem with hold | hnew
    · exact Or.inr hold
    · exact Or.inl (List.mem_singleton.mp hnew)

theorem mem_putHost_self (h : Host) (hosts : List Host) : h ∈ putHost h hosts := by
  rw [putHost]
  split
  next hknown =>
    rcases List.any_eq_true.mp hknown with ⟨x, hx, hid⟩
    exact List.mem_map.mpr ⟨x, hx, if_pos (of_decide_eq_true hid)⟩
  next =>
    exact List.mem_append_right _ List.mem_cons_self

theorem mem_hosts_begin_attach (c : Controller) (env : Env) (host : Host) :
    host ∈ (c.begin env (.attach host)).1.hosts := by
  have hput : (c.begin env (.attach host)).1.hosts = putHost host c.hosts := hosts_beginAttach c host
  rw [hput]
  exact mem_putHost_self host c.hosts

theorem mem_hosts_begin {c : Controller} {env : Env} {order : Order} {host : Host}
    (hmem : host ∈ (c.begin env order).1.hosts) : host ∈ c.hosts ∨ order = .attach host := by
  cases order with
  | start group cause =>
      have hsame : (c.begin env (.start group cause)).1.hosts = c.hosts :=
        (frame_beginStart c env group cause).right.right
      exact Or.inl (hsame ▸ hmem)
  | stop id cause =>
      exact Or.inl hmem
  | attach other =>
      have hput : (c.begin env (.attach other)).1.hosts = putHost other c.hosts :=
        hosts_beginAttach c other
      rw [hput] at hmem
      rcases mem_putHost hmem with rfl | hold
      · exact Or.inr rfl
      · exact Or.inl hold

end Controller

namespace Fleet

variable {w : Fleet} {move : Move} {host : Host}

theorem mem_hosts_go {t : Nat} {env : Env} {replies : List Reply}
    (hmem : host ∈ (w.go t env replies).controller.hosts) :
    host ∈ w.controller.hosts ∨ w.HasOrder t (.attach host) := by
  rw [Fleet.go] at hmem
  split at hmem
  next =>
    exact Or.inl hmem
  next =>
    exact Or.inl hmem
  next order htask =>
    split at hmem
    next =>
      exact Or.inl hmem
    next =>
      rcases Controller.mem_hosts_begin hmem with hold | rfl
      · exact Or.inl hold
      · exact Or.inr ⟨.ordered, htask⟩
  next order job htask =>
    split at hmem
    next =>
      have hsame := Controller.hosts_resume w.controller env job replies
      exact Or.inl (hsame ▸ hmem)
    next =>
      exact Or.inl hmem

theorem mem_hosts_step (h : w.Sound) (hmem : host ∈ (w.step move).controller.hosts) :
    host ∈ w.controller.hosts ∨ ∃ t, w.HasOrder t (.attach host) := by
  cases move with
  | order _ | orderPass | weather _ _ _ =>
      exact Or.inl hmem
  | stopNumber group number cause =>
      rw [Fleet.step] at hmem
      split at hmem
      next =>
        exact Or.inl hmem
      next =>
        exact Or.inl hmem
  | go t env replies =>
      exact (mem_hosts_go hmem).imp_right fun horder => ⟨t, horder⟩
  | goPass p =>
      rw [Fleet.step, controller_goPass] at hmem
      exact Or.inl hmem
  | setState env id state =>
      rw [Fleet.step, Controller.setState, Controller.hosts_update] at hmem
      exact Or.inl hmem
  | setProperty env id key value =>
      rw [Fleet.step, Controller.setProperty, Controller.hosts_update] at hmem
      exact Or.inl hmem
  | restart settings =>
      rw [Fleet.step, h.restart_eq] at hmem
      cases hmem

theorem move_of_orders_attach (h : w.Orders move (.attach host)) : move = .order (.attach host) := by
  cases h
  rfl

theorem ordered_of_mem_hosts (settings : ControlSettings) {moves : List Move}
    (hmem : host ∈ (run settings moves).controller.hosts) : .order (.attach host) ∈ moves := by
  obtain ⟨before, move, after, rfl, t, horder⟩ :=
    exists_move_of_run (P := fun w => host ∈ w.controller.hosts)
      (Q := fun w _ => ∃ t, w.HasOrder t (.attach host)) settings List.not_mem_nil
      (fun w move hsound => mem_hosts_step hsound) hmem
  obtain ⟨earlier, ordering, between, rfl, horders⟩ := exists_orders_of_run settings horder
  rw [move_of_orders_attach horders]
  simp

end Fleet

/-!
# Tables of groups
-/

namespace Database

variable {db db' : Database} {g : Group} {name : String}

theorem permit_eq_ok {statement : Statement} {next : Except StoreError α} {a : α}
    (h : db.permit statement next = .ok a) : next = .ok a := by
  rw [permit] at h
  split at h
  next =>
    exact h
  next =>
    cases h

theorem groups_of_saveGroup (h : db.saveGroup g = .ok db') : ∃ groups, db' = { db with groups } := by
  rw [saveGroup] at h
  split at h
  next =>
    cases h
  next =>
    cases permit_eq_ok h
    exact ⟨_, rfl⟩

theorem groups_of_deleteGroup {deleted : Bool} (h : db.deleteGroup name = .ok (deleted, db')) :
    ∃ groups, db' = { db with groups } := by
  rw [deleteGroup] at h
  split at h
  next =>
    cases h
  next =>
    split at h
    next =>
      cases permit_eq_ok h
      exact ⟨_, rfl⟩
    next =>
      cases h
      exact ⟨db.groups, rfl⟩

end Database

namespace Api

/-!
# What a request comes to
-/

structure Registers (ctx : Context) (r : Http.Request) (host : Host) : Prop where
  path : r.resource? = some .hosts
  method : r.method = "POST"
  order : attachHost ctx.hostId r = .ok (.attach host)

/-- What a request can come to: an answer, a stream, a change that is made at once, or an order. -/
inductive Comes (c : Controller) (ctx : Context) (r : Http.Request) : Controller × Reply → Prop where
  | answered (response : Http.Response) : Comes c ctx r (c, .now response)
  | streamed : Comes c ctx r (c, .stream)
  | grouped (groups : List GroupRow) (response : Http.Response) :
      Comes c ctx r (withDatabase c { c.store.database with groups }, .now response)
  | state (id : ServerId) (state : ServerState) (response : Http.Response) :
      Comes c ctx r ((c.setState ctx.toEnv id state).1, .now response)
  | property (id : ServerId) (key value : String) (response : Http.Response) :
      Comes c ctx r ((c.setProperty ctx.toEnv id key value).1, .now response)
  | ordered (order : Order) (finish : Outcome → Http.Response)
      (hattach : ∀ host, order = .attach host → Registers ctx r host) :
      Comes c ctx r (c, .later order finish)

section

variable {c : Controller} {ctx : Context} {r : Http.Request}

theorem comes_write {attempt : Attempt (Controller × Http.Response)}
    (h : ∀ c' response, attempt = .ok (c', response) → Comes c ctx r (c', .now response)) :
    Comes c ctx r (attempt.write c) := by
  cases attempt with
  | error response =>
      exact .answered response
  | ok written =>
      exact h written.1 written.2 rfl

theorem comes_order {attempt : Attempt Order} {finish : Outcome → Http.Response}
    (h : ∀ host, attempt = .ok (.attach host) → Registers ctx r host) :
    Comes c ctx r (attempt.order c finish) := by
  cases attempt with
  | error response =>
      exact .answered response
  | ok order =>
      refine .ordered order finish ?_
      rintro host rfl
      exact h host rfl

theorem Attempt.bind_eq_ok {attempt : Attempt α} {next : α → Attempt β} {b : β}
    (h : attempt >>= next = .ok b) : ∃ a, attempt = .ok a ∧ next a = .ok b := by
  cases attempt with
  | error response =>
      cases h
  | ok a =>
      exact ⟨a, rfl, h⟩

theorem stored_eq_ok {result : Except StoreError α} {a : α} (h : stored result = .ok a) :
    result = .ok a := by
  cases result with
  | error e =>
      cases h
  | ok a' =>
      cases h
      rfl

theorem comes_createGroup : Comes c ctx r ((createGroup c r).write c) := by
  apply comes_write
  intro c' response h
  obtain ⟨g, _, h⟩ := Attempt.bind_eq_ok h
  obtain ⟨_, _, h⟩ := Attempt.bind_eq_ok h
  obtain ⟨found, _, h⟩ := Attempt.bind_eq_ok h
  cases found with
  | some old =>
      cases h
  | none =>
      obtain ⟨db, hsaved, h⟩ := Attempt.bind_eq_ok h
      obtain ⟨groups, rfl⟩ := Database.groups_of_saveGroup (stored_eq_ok hsaved)
      cases h
      exact .grouped groups _

theorem comes_updateGroup (raw : String) :
    Comes c ctx r ((updateGroup c raw r).write c) := by
  apply comes_write
  intro c' response h
  obtain ⟨name, _, h⟩ := Attempt.bind_eq_ok h
  obtain ⟨g, _, h⟩ := Attempt.bind_eq_ok h
  split at h
  next =>
    cases h
  next =>
    obtain ⟨_, _, h⟩ := Attempt.bind_eq_ok h
    obtain ⟨found, _, h⟩ := Attempt.bind_eq_ok h
    cases found with
    | none =>
        cases h
    | some old =>
        obtain ⟨db, hsaved, h⟩ := Attempt.bind_eq_ok h
        obtain ⟨groups, rfl⟩ := Database.groups_of_saveGroup (stored_eq_ok hsaved)
        cases h
        exact .grouped groups _

theorem comes_deleteGroup (raw : String) :
    Comes c ctx r ((deleteGroup c raw).write c) := by
  apply comes_write
  intro c' response h
  obtain ⟨name, _, h⟩ := Attempt.bind_eq_ok h
  obtain ⟨⟨deleted, db⟩, hdeleted, h⟩ := Attempt.bind_eq_ok h
  obtain ⟨groups, rfl⟩ := Database.groups_of_deleteGroup (stored_eq_ok hdeleted)
  cases deleted with
  | false =>
      cases h
  | true =>
      cases h
      exact .grouped groups _

theorem comes_updateState (raw : String) :
    Comes c ctx r ((updateState c ctx.toEnv raw r).write c) := by
  apply comes_write
  intro c' response h
  obtain ⟨text, _, h⟩ := Attempt.bind_eq_ok h
  obtain ⟨state, _, h⟩ := Attempt.bind_eq_ok h
  obtain ⟨id, _, h⟩ := Attempt.bind_eq_ok h
  split at h
  next =>
    cases h
  next =>
    cases h
    exact .state id (.ofText state) _

theorem comes_updateProperty (raw rawKey : String) :
    Comes c ctx r ((updateProperty c ctx.toEnv raw rawKey r).write c) := by
  apply comes_write
  intro c' response h
  obtain ⟨text, _, h⟩ := Attempt.bind_eq_ok h
  obtain ⟨key, _, h⟩ := Attempt.bind_eq_ok h
  obtain ⟨value, _, h⟩ := Attempt.bind_eq_ok h
  obtain ⟨id, _, h⟩ := Attempt.bind_eq_ok h
  cases h
  exact .property id key value _

theorem startServer_ne_attach (r : Http.Request) (host : Host) :
    startServer r ≠ .ok (.attach host) := by
  intro h
  obtain ⟨body, _, h⟩ := Attempt.bind_eq_ok h
  cases h

theorem stopServer_ne_attach (raw : String) (host : Host) : stopServer raw ≠ .ok (.attach host) := by
  intro h
  obtain ⟨text, _, h⟩ := Attempt.bind_eq_ok h
  obtain ⟨id, _, h⟩ := Attempt.bind_eq_ok h
  cases h

theorem stopGroupServer_ne_attach (c : Controller) (raw rawNumber : String) (host : Host) :
    stopGroupServer c raw rawNumber ≠ .ok (.attach host) := by
  intro h
  obtain ⟨name, _, h⟩ := Attempt.bind_eq_ok h
  obtain ⟨number, _, h⟩ := Attempt.bind_eq_ok h
  split at h
  next hstop =>
    cases h
    obtain ⟨s, _, hstopped⟩ := Controller.stopByNumber_eq_ok_iff.mp hstop
    cases hstopped
  next =>
    cases h

theorem method_of_verb {method : String} (h : r.verb = method) (hget : method ≠ "GET") :
    r.method = method := by
  rw [Http.Request.verb] at h
  split at h
  next =>
    exact absurd h.symm hget
  next =>
    exact h

theorem comes_dispatch (c : Controller) (ctx : Context) {resource : Resource} {method : String}
    (hpath : r.resource? = some resource) (hverb : r.verb = method) (query : String) :
    Comes c ctx r (dispatch c ctx resource method query r) := by
  -- Only the handlers that write or order are told apart; what is left answers without a change.
  fun_cases dispatch c ctx resource method query r
  case case5 =>
    exact comes_createGroup
  case case7 name =>
    exact comes_updateGroup name
  case case8 name =>
    exact comes_deleteGroup name
  case case11 name number =>
    exact comes_order fun host h => absurd h (stopGroupServer_ne_attach c name number host)
  case case13 =>
    exact comes_order fun host h => absurd h (startServer_ne_attach r host)
  case case15 id =>
    exact comes_order fun host h => absurd h (stopServer_ne_attach id host)
  case case16 id =>
    exact comes_updateState id
  case case17 id key =>
    exact comes_updateProperty id key
  case case19 =>
    exact comes_order fun host h => ⟨hpath, method_of_verb hverb (by decide), h⟩
  case case20 =>
    exact .streamed
  all_goals exact .answered _

theorem Comes.to {step : Controller × Reply} (h : Comes c ctx r step) :
    Comes c ctx r (step.1, step.2.to r) := by
  by_cases hhead : r.method = "HEAD"
  case neg =>
    simpa only [Reply.to, hhead, if_false] using h
  case pos =>
    simp only [Reply.to, hhead, if_true]
    cases h with
    | answered response =>
        exact .answered response.withoutBody
    | streamed =>
        exact .answered .eventStream
    | grouped groups response =>
        exact .grouped groups response.withoutBody
    | state id state response =>
        exact .state id state response.withoutBody
    | property id key value response =>
        exact .property id key value response.withoutBody
    | ordered order finish hattach =>
        exact .ordered order _ hattach

theorem comes_handle (token : Option String) (c : Controller) (ctx : Context) (r : Http.Request) :
    Comes c ctx r (handle token c ctx r) := by
  by_cases hoptions : r.method = "OPTIONS"
  · rw [handle, if_pos hoptions]
    exact .answered _
  · cases hpath : r.resource? with
    | none =>
        have hmissing : Resource.ofSegments? (Http.Target.ofText r.target).segments = none := hpath
        simp only [handle, hoptions, if_false, answer, hmissing]
        exact (Comes.answered (.empty 404)).to
    | some resource =>
        have hserved : Comes c ctx r (served c ctx resource r) :=
          (comes_dispatch c ctx hpath rfl _).to
        rw [handle_eq hpath hoptions]
        split
        next =>
          exact hserved
        next =>
          split
          next =>
            exact hserved
          next p _ =>
            exact (Comes.answered p.response).to

end

/-!
# Requests as moves
-/

def ask (token : Option String) (w : Fleet) (ctx : Context) (r : Http.Request) : Fleet :=
  let (controller, reply) := handle token w.controller ctx r
  match reply with
  | .later order _ => { w with controller }.spawn order
  | _ => { w with controller }

/-- A request makes at most one move, and orders the registration of no host but the one it describes. -/
theorem ask_eq_step (token : Option String) (w : Fleet) (ctx : Context) (r : Http.Request) :
    ask token w ctx r = w ∨ ∃ move, ask token w ctx r = w.step move ∧
      ∀ host, move = .order (.attach host) → Registers ctx r host := by
  have hcomes := comes_handle token w.controller ctx r
  rw [ask]
  generalize handle token w.controller ctx r = step at *
  cases hcomes with
  | answered response | streamed =>
      exact Or.inl rfl
  | grouped groups response =>
      refine Or.inr ⟨.weather groups w.controller.store.database.hasGroups
        w.controller.store.database.refusal, rfl, ?_⟩
      rintro host ⟨⟩
  | state id state response =>
      refine Or.inr ⟨.setState ctx.toEnv id state, rfl, ?_⟩
      rintro host ⟨⟩
  | property id key value response =>
      refine Or.inr ⟨.setProperty ctx.toEnv id key value, rfl, ?_⟩
      rintro host ⟨⟩
  | ordered order finish hattach =>
      refine Or.inr ⟨.order order, rfl, ?_⟩
      rintro host ⟨⟩
      exact hattach host rfl

/-- What happens to a fleet that is asked over HTTP: a request, or a move that is made beside all requests. -/
inductive Occurrence where
  | request (ctx : Context) (r : Http.Request)
  | move (move : Fleet.Move)

def happen (token : Option String) (w : Fleet) : Occurrence → Fleet
  | .request ctx r => ask token w ctx r
  | .move move => w.step move

def run (token : Option String) (settings : ControlSettings) (course : List Occurrence) : Fleet :=
  course.foldl (happen token) (Fleet.fresh settings)

/-- A host is ordered to be registered in a course of occurrences: beside all requests, or by one of them. -/
def RegisteredBy (course : List Occurrence) (host : Host) : Prop :=
  .move (.order (.attach host)) ∈ course ∨
    ∃ ctx r, .request ctx r ∈ course ∧ Registers ctx r host

theorem RegisteredBy.mono {course more : List Occurrence} {host : Host}
    (h : RegisteredBy course host) (hsub : course ⊆ more) : RegisteredBy more host := by
  rcases h with hbeside | ⟨ctx, r, hasked, hregisters⟩
  · exact Or.inl (hsub hbeside)
  · exact Or.inr ⟨ctx, r, hsub hasked, hregisters⟩

theorem happen_eq_step (token : Option String) (w : Fleet) (a : Occurrence) :
    happen token w a = w ∨ ∃ move, happen token w a = w.step move ∧
      ∀ host, move = .order (.attach host) → RegisteredBy [a] host := by
  cases a with
  | move move =>
      refine Or.inr ⟨move, rfl, ?_⟩
      rintro host rfl
      exact Or.inl List.mem_cons_self
  | request ctx r =>
      rcases ask_eq_step token w ctx r with hsame | ⟨move, hstep, hattach⟩
      · exact Or.inl hsame
      · refine Or.inr ⟨move, hstep, ?_⟩
        intro host hmove
        exact Or.inr ⟨ctx, r, List.mem_cons_self, hattach host hmove⟩

theorem exists_fleet_run (token : Option String) (settings : ControlSettings)
    (course : List Occurrence) :
    ∃ moves, run token settings course = Fleet.run settings moves ∧
      ∀ host, .order (.attach host) ∈ moves → RegisteredBy course host := by
  induction course using List.reverseRecOn with
  | nil =>
      exact ⟨[], rfl, fun host hmem => nomatch hmem⟩
  | append_singleton course a ih =>
      obtain ⟨moves, hrun, hordered⟩ := ih
      have hlast : run token settings (course ++ [a]) = happen token (Fleet.run settings moves) a := by
        rw [← hrun, run, List.foldl_append]
        rfl
      rw [hlast]
      rcases happen_eq_step token (Fleet.run settings moves) a with hsame | ⟨move, hstep, hattach⟩
      · exact ⟨moves, hsame, fun host hmem =>
          (hordered host hmem).mono (List.subset_append_left course [a])⟩
      · refine ⟨moves ++ [move], hstep.trans (Fleet.run_snoc settings moves move).symm, ?_⟩
        intro host hmem
        rcases List.mem_append.mp hmem with hold | hnew
        · exact (hordered host hold).mono (List.subset_append_left course [a])
        · exact (hattach host (List.mem_singleton.mp hnew).symm).mono
            (List.subset_append_right course [a])

theorem registered_of_mem_hosts {token : Option String} {settings : ControlSettings}
    {course : List Occurrence} {host : Host}
    (hmem : host ∈ (run token settings course).controller.hosts) : RegisteredBy course host := by
  obtain ⟨moves, hrun, hordered⟩ := exists_fleet_run token settings course
  rw [hrun] at hmem
  exact hordered host (Fleet.ordered_of_mem_hosts settings hmem)

end Api
end ServerFleet
