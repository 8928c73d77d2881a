import ServerFleet.Proofs.Fleet.Confinement
import ServerFleet.Proofs.Fleet.Lives
import ServerFleet.Proofs.Fleet.Registrations

/-!
# Why records leave

A record leaves the store when a host has confirmed that its server was stopped, when a
registration finds that its host has lost it, or when the start of its server is rolled
back.  Each of them goes back to a call about this very server.  What a task does at the
end of a call is traced back to the move with which it set out to ask.
-/

namespace ServerFleet

/-- What a host has answered does not confirm a server: it is an error, or the record of another one. -/
def Answer.Denies (answer : Answer) (id : ServerId) : Prop :=
  match answer with
  | .error _ => True
  | .ok theirs => theirs.id ≠ id

theorem Server.denies_iff (ours : Server) (answer : Answer) (now : Time.Instant) :
    answer.Denies ours.id ↔ ∃ e, (answer.bind fun theirs => ours.merge theirs now) = .error e := by
  cases answer with
  | error e =>
      exact iff_of_true trivial ⟨e, rfl⟩
  | ok theirs =>
      show theirs.id ≠ ours.id ↔ ∃ e, ours.merge theirs now = .error e
      rw [Server.merge]
      split
      next hid =>
        exact iff_of_true hid ⟨_, rfl⟩
      next hid =>
        refine iff_of_false hid ?_
        intro he
        rcases he with ⟨e, he⟩
        cases he

theorem Server.not_denies_of_bind {ours merged : Server} {answer : Answer} {now : Time.Instant}
    (h : (answer.bind fun theirs => ours.merge theirs now) = .ok merged) : ¬ answer.Denies ours.id := by
  rw [denies_iff ours answer now, h]
  intro he
  rcases he with ⟨e, he⟩
  cases he

theorem Controller.Sweeps.denied {report report' : Report} {pairs : List (Server × Reply)}
    {es : List Edit} (h : Sweeps report pairs es report') {r : Server} {cause : Cause}
    (hr : .remove r cause ∈ es) :
    cause = .hostLost ∧ ∃ p ∈ pairs, p.1.id = r.id ∧ p.2.answer.Denies r.id := by
  have hlater {pairs : List (Server × Reply)} {p : Server × Reply}
      (h : cause = .hostLost ∧ ∃ q ∈ pairs, q.1.id = r.id ∧ q.2.answer.Denies r.id) :
      cause = .hostLost ∧ ∃ q ∈ p :: pairs, q.1.id = r.id ∧ q.2.answer.Denies r.id := by
    rcases h with ⟨hcause, q, hq, hdenied⟩
    exact ⟨hcause, q, List.mem_cons_of_mem p hq, hdenied⟩
  induction h with
  | nil report =>
      cases hr
  | refreshed _ _ ih =>
      rcases List.mem_cons.mp hr with hfirst | hr
      · cases hfirst
      · exact hlater (ih hr)
  | purged hmerged hid _ ih =>
      rcases List.mem_cons.mp hr with hfirst | hr
      · cases hfirst
        refine ⟨rfl, _, List.mem_cons_self, hid.symm, ?_⟩
        rw [hid]
        exact (Server.denies_iff _ _ _).mpr ⟨_, hmerged⟩
      · exact hlater (ih hr)
  | absent _ ih =>
      exact hlater (ih hr)
  | failed _ ih =>
      exact hlater (ih hr)

namespace Fleet

variable {w w' : Fleet} {move : Move} {now : Time.Instant} {es : List Edit} {t : Nat} {order : Order}
  {s : Server}

/-!
# Where the work of a task comes from
-/

theorem exists_move_of_run {P : Fleet → Prop} {Q : Fleet → Move → Prop} (settings : ControlSettings)
    (hfresh : ¬ P (fresh settings)) (hstep : ∀ w move, w.Sound → P (w.step move) → P w ∨ Q w move)
    {moves : List Move} (h : P (run settings moves)) :
    ∃ before move after, moves = before ++ move :: after ∧ Q (run settings before) move := by
  induction moves using List.reverseRecOn with
  | nil =>
      exact absurd h hfresh
  | append_singleton moves move ih =>
      rw [run_snoc] at h
      rcases hstep _ move (sound_run settings moves) h with hbefore | hnow
      · rcases ih hbefore with ⟨before, earlier, after, hmoves, hearlier⟩
        refine ⟨before, earlier, after ++ [move], ?_, hearlier⟩
        rw [hmoves, List.append_assoc, List.cons_append]
      · exact ⟨moves, move, [], rfl, hnow⟩

inductive Orders (w : Fleet) : Move → Order → Prop where
  | order (order : Order) : Orders w (.order order) order
  | stopNumber {group : String} {number : Nat} {s : Server} (cause : Cause)
      (hs : w.controller.serverByNumber group number = .ok s) :
      Orders w (.stopNumber group number cause) (.stop s.id cause)
  | pass (p : Nat) (pass : Pass) : Orders w (.goPass p) pass.order

def HasOrder (w : Fleet) (t : Nat) (order : Order) : Prop :=
  ∃ stage, w.tasks t = some ⟨order, stage⟩

theorem hasOrder_spawn {ordered : Order} (h : (w.spawn ordered).HasOrder t order) :
    w.HasOrder t order ∨ order = ordered := by
  rcases h with ⟨stage, htask⟩
  rcases of_tasks_spawn htask with hold | ⟨_, hnew⟩
  · exact Or.inl ⟨stage, hold⟩
  · exact Or.inr (congrArg Task.order hnew)

theorem hasOrder_advance {u : Nat} {ordered : Order} {stage : Stage}
    {step : Controller × Progress Job Outcome} (hold : w.tasks u = some ⟨ordered, stage⟩)
    (h : (w.advance u ordered step).HasOrder t order) : w.HasOrder t order := by
  rcases h with ⟨stage', htask⟩
  rcases of_tasks_advance htask with hsame | ⟨rfl, hnew⟩
  · exact ⟨stage', hsame⟩
  · cases hnew
    exact ⟨stage, hold⟩

theorem hasOrder_go {u : Nat} {env : Env} {replies : List Reply}
    (h : (w.go u env replies).HasOrder t order) : w.HasOrder t order := by
  rw [Fleet.go] at h
  split at h
  next =>
    exact h
  next =>
    exact h
  next hold =>
    split at h
    next =>
      exact h
    next =>
      exact hasOrder_advance hold h
  next hold =>
    split at h
    next =>
      exact hasOrder_advance hold h
    next =>
      exact h

theorem hasOrder_advancePass {p : Nat} {progress : Progress Pass PassStats}
    (h : (w.advancePass p progress).HasOrder t order) :
    w.HasOrder t order ∨ ∃ pass : Pass, order = pass.order := by
  cases progress with
  | done stats =>
      exact Or.inl h
  | waiting pass =>
      rcases hasOrder_spawn h with hold | hnew
      · exact Or.inl hold
      · exact Or.inr ⟨pass, hnew⟩

theorem hasOrder_goPass {p : Nat} (h : (w.goPass p).HasOrder t order) :
    w.HasOrder t order ∨ ∃ pass : Pass, order = pass.order := by
  rw [Fleet.goPass] at h
  split at h
  next =>
    exact Or.inl h
  next =>
    exact Or.inl h
  next =>
    split at h
    next =>
      exact Or.inl h
    next =>
      exact hasOrder_advancePass h
  next =>
    split at h
    next =>
      exact hasOrder_advancePass h
    next =>
      exact Or.inl h

theorem hasOrder_step (h : w.Sound) (horder : (w.step move).HasOrder t order) :
    w.HasOrder t order ∨ w.Orders move order := by
  cases move with
  | order ordered =>
      rcases hasOrder_spawn horder with hold | rfl
      · exact Or.inl hold
      · exact Or.inr (.order order)
  | stopNumber group number cause =>
      rw [Fleet.step] at horder
      split at horder
      next =>
        exact Or.inl horder
      next ordered hordered =>
        obtain ⟨s, hs, rfl⟩ := Controller.stopByNumber_eq_ok_iff.mp hordered
        rcases hasOrder_spawn horder with hold | rfl
        · exact Or.inl hold
        · exact Or.inr (.stopNumber cause hs)
  | go u env replies =>
      exact Or.inl (hasOrder_go horder)
  | goPass p =>
      rcases hasOrder_goPass horder with hold | ⟨pass, rfl⟩
      · exact Or.inl hold
      · exact Or.inr (.pass p pass)
  | restart settings =>
      rw [Fleet.step, h.restart_eq] at horder
      rcases horder with ⟨stage, htask⟩
      cases htask
  | orderPass | setState env id state | setProperty env id key value
  | weather groups hasGroups refusal =>
      exact Or.inl horder

inductive SetsOut (w : Fleet) (t : Nat) (order : Order) (job : Job) : Move → Prop where
  | begins {env : Env} {replies : List Reply} {es : List Edit}
      (hold : w.tasks t = some ⟨order, .ordered⟩)
      (hbegins : w.controller.Begins env order es (.waiting job)) :
      SetsOut w t order job (.go t env replies)
  | resumes {old : Job} {env : Env} {replies : List Reply} {es : List Edit}
      (hold : w.tasks t = some ⟨order, .asking old⟩)
      (hresumes : w.controller.Resumes env old replies es (.waiting job)) :
      SetsOut w t order job (.go t env replies)

theorem eq_waiting_of_stage {p : Progress Job Outcome} {job : Job} (h : p.stage = .asking job) :
    p = .waiting job := by
  cases p with
  | done outcome =>
      cases h
  | waiting job' =>
      cases h
      rfl

theorem Goes.setsOut (hgoes : w.Goes move now es w') {job : Job}
    (htask : w'.tasks t = some ⟨order, .asking job⟩) :
    w.tasks t = some ⟨order, .asking job⟩ ∨ w.SetsOut t order job move := by
  cases hgoes with
  | still _ _ htasks =>
      rcases htasks t with hsame | ⟨_, ordered, hnew⟩
      · exact Or.inl (hsame ▸ htask)
      · rw [hnew] at htask
        cases htask
  | weather | override _ _ _ =>
      exact Or.inl htask
  | restart =>
      cases htask
  | @begin _ _ _ _ _ _ p hold _ _ hbegins _ =>
      rcases of_tasks_advance htask with hsame | ⟨rfl, hnew⟩
      · exact Or.inl hsame
      · have hwaiting : p = .waiting job := eq_waiting_of_stage (congrArg Task.stage hnew).symm
        cases congrArg Task.order hnew
        exact Or.inr (.begins hold (hwaiting ▸ hbegins))
  | @resume _ _ _ _ _ _ _ p hold _ _ hresumes _ =>
      rcases of_tasks_advance htask with hsame | ⟨rfl, hnew⟩
      · exact Or.inl hsame
      · have hwaiting : p = .waiting job := eq_waiting_of_stage (congrArg Task.stage hnew).symm
        cases congrArg Task.order hnew
        exact Or.inr (.resumes hold (hwaiting ▸ hresumes))

theorem exists_orders_of_run (settings : ControlSettings) {moves : List Move}
    (h : (run settings moves).HasOrder t order) :
    ∃ before move after, moves = before ++ move :: after ∧ (run settings before).Orders move order := by
  refine exists_move_of_run (P := fun w => w.HasOrder t order)
    (Q := fun w move => w.Orders move order) settings ?_ ?_ h
  · intro hfresh
    rcases hfresh with ⟨stage, htask⟩
    cases htask
  · intro w move hsound
    exact hasOrder_step hsound

theorem exists_setsOut_of_run (settings : ControlSettings) {moves : List Move} {job : Job}
    (h : (run settings moves).tasks t = some ⟨order, .asking job⟩) :
    ∃ before move after, moves = before ++ move :: after ∧
      (run settings before).SetsOut t order job move := by
  refine exists_move_of_run (P := fun w => w.tasks t = some ⟨order, .asking job⟩)
    (Q := fun w => w.SetsOut t order job) settings ?_ ?_ h
  · intro hfresh
    cases hfresh
  · intro w move hsound htask
    rcases hsound.goes move with ⟨now, es, hgoes⟩
    exact hgoes.setsOut htask

/-!
# Causes
-/

/-- The task of a stop takes it up: it finds the server stored, its launch over and its host registered.  This is
checked when the task goes on for the first time, not when the stop is ordered, and the launch may have
ended in between. -/
structure TakesUp (w : Fleet) (t : Nat) (k : Stopping) : Prop where
  ordered : w.tasks t = some ⟨.stop k.server.id k.cause, .ordered⟩
  stored : w.controller.store.get? k.server.id = some k.server
  landed : k.server.id ∉ w.controller.store.launching
  registered : w.controller.host? k.server.hostId = some k.host

/-- Why the record of a server leaves the store after a run, with which move, and what this publishes. -/
inductive Departs (settings : ControlSettings) (moves : List Move) (s : Server) :
    Move → List FleetEvent → Prop where
  /-- A stop was ordered at some time, be it while the server was launched.  Its task has taken it up, which it
  can only when the launch is over, and the host that it has asked has confirmed the termination. -/
  | stopped {t : Nat} {k : Stopping} {env env₀ : Env} {replies replies₀ : List Reply}
      {before earlier between after : List Move} {ordering : Move} {answer : Server}
      (hidentity : k.server.identity = s.identity)
      (hmoves : moves = before ++ .go t env₀ replies₀ :: after)
      (htakesUp : (run settings before).TakesUp t k)
      (hbefore : before = earlier ++ ordering :: between)
      (horders : (run settings earlier).Orders ordering (.stop s.id k.cause))
      (htask : (run settings moves).tasks t = some ⟨.stop s.id k.cause, .asking (.stop k)⟩)
      (hanswer : Controller.single replies = .ok answer) :
      Departs settings moves s (.go t env replies) [.stop s k.cause env.now]
  | purged {t : Nat} {sweep : Sweep} {env : Env} {replies : List Reply} {asked : Server} {reply : Reply}
      (hidentity : asked.identity = s.identity) (hhost : sweep.host.id = s.hostId)
      (htask : (run settings moves).tasks t = some ⟨.attach sweep.host, .asking (.attach sweep)⟩)
      (hreply : (asked, reply) ∈ sweep.owned.zip replies) (hdenied : reply.answer.Denies s.id) :
      Departs settings moves s (.go t env replies) [.stop s .hostLost env.now]
  | failed {t : Nat} {order : Order} {l : Launch} {env : Env} {replies : List Reply}
      (hidentity : l.provisional.identity = s.identity)
      (htask : (run settings moves).tasks t = some ⟨order, .asking (.start (.launching l))⟩)
      (hdenied : (Controller.single replies).Denies s.id) :
      Departs settings moves s (.go t env replies) []
  /-- The server was launched, but its record could not be written. -/
  | undone {t : Nat} {order : Order} {l : Launch} {u : Undo} {env env₀ : Env}
      {replies replies₀ : List Reply} {before after : List Move} {reason : String}
      (hidentity : l.provisional.identity = s.identity)
      (hmoves : moves = before ++ .go t env₀ replies₀ :: after)
      (hlaunch : (run settings before).tasks t = some ⟨order, .asking (.start (.launching l))⟩)
      (hconfirmed : ¬ (Controller.single replies₀).Denies s.id)
      (hrefused : (run settings before).controller.store.database.refusal (.saveServer s.id.text) =
        some reason)
      (htask : (run settings moves).tasks t = some ⟨order, .asking (.start (.undoing u))⟩)
      (hundo : u.provisional = l.provisional ∧ u.failure = some (.refused reason)) :
      Departs settings moves s (.go t env replies) []

/-!
# Departures
-/

theorem Goes.exists_gone (hgoes : w.Goes move now es w') (h : w.Sound)
    (hs : w.controller.store.get? s.id = some s) (hnone : w'.controller.store.get? s.id = none) :
    ∃ e ∈ es, e.gone? = some s.id := by
  have hedit : ∃ e ∈ es, e.id = s.id := by
    by_contra hothers
    have hsame := hgoes.get?_eq h fun e he hid => hothers ⟨e, he, hid⟩
    rw [hs, hnone] at hsame
    cases hsame
  rcases hedit with ⟨e, he, hid⟩
  refine ⟨e, he, ?_⟩
  have hleft := hgoes.get?_of_mem h he
  rw [hid, hs, hnone] at hleft
  cases e with
  | withdraw r | remove r cause =>
      exact congrArg some hid
  | place _ | commit _ _ | land _ | refresh _ | override _ _ =>
      cases hleft

theorem Sound.identity_of_placed (h : w.Sound) (hs : w.controller.store.get? s.id = some s)
    {a : Identity} (ha : a ∈ w.placed) (hid : a.id = s.id) : a = s.identity :=
  h.books.identity_eq ha (h.books.placed s (Store.mem_of_get? hs).left) hid

theorem order_of_admits_stop {k : Stopping} (h : Admits order (.asking (.stop k))) :
    order = .stop k.server.id k.cause := by
  cases order with
  | start group cause =>
      rcases h with ⟨work, hjob⟩
      cases hjob
  | stop id cause =>
      rcases h with ⟨k', hjob, rfl, rfl⟩
      cases hjob
      rfl
  | attach host =>
      rcases h with ⟨sweep, hjob, _⟩
      cases hjob

theorem order_of_admits_attach {sweep : Sweep} (h : Admits order (.asking (.attach sweep))) :
    order = .attach sweep.host := by
  cases order with
  | start group cause =>
      rcases h with ⟨work, hjob⟩
      cases hjob
  | stop id cause =>
      rcases h with ⟨k, hjob, _⟩
      cases hjob
  | attach host =>
      rcases h with ⟨sweep', hjob, rfl⟩
      cases hjob
      rfl

section

variable {settings : ControlSettings} {moves : List Move} {env : Env} {replies : List Reply}

theorem SetsOut.takesUp {k : Stopping} (h : w.Sound) (hout : w.SetsOut t order (.stop k) move) :
    w.TakesUp t k ∧ ∃ env replies, move = .go t env replies := by
  cases hout with
  | begins hold hbegins =>
      cases hbegins with
      | stopping hs hlanded hhost =>
          exact ⟨⟨hold, h.books.store.get?_eq_some_iff.mpr ⟨hs, rfl⟩, hlanded, hhost⟩, _, _, rfl⟩
  | resumes _ hresumes =>
      cases hresumes

theorem departs_stopped (hs : (run settings moves).controller.store.get? s.id = some s) {k : Stopping}
    (htask : (run settings moves).tasks t = some ⟨order, .asking (.stop k)⟩) {answer : Server}
    (hanswer : Controller.single replies = .ok answer) (hid : k.server.id = s.id) :
    Departs settings moves s (.go t env replies) [.stop s k.cause env.now] := by
  have h := sound_run settings moves
  cases order_of_admits_stop (h.admits t _ htask)
  have hfits : (Job.stop k).Fits (run settings moves).books := h.fits t _ htask
  rcases exists_setsOut_of_run settings htask with ⟨before, move, after, hmoves, hout⟩
  rcases hout.takesUp (sound_run settings before) with ⟨htakesUp, env₀, replies₀, rfl⟩
  rcases exists_orders_of_run settings ⟨_, htakesUp.ordered⟩ with
    ⟨earlier, ordering, between, hbefore, horders⟩
  rw [hid] at horders htask
  exact .stopped (h.identity_of_placed hs hfits.left hid) hmoves htakesUp hbefore horders htask hanswer

theorem departs_purged (hs : (run settings moves).controller.store.get? s.id = some s) {sweep : Sweep}
    (htask : (run settings moves).tasks t = some ⟨order, .asking (.attach sweep)⟩)
    {p : Server × Reply} (hp : p ∈ sweep.owned.zip replies) (hid : p.1.id = s.id)
    (hdenied : p.2.answer.Denies s.id) :
    Departs settings moves s (.go t env replies) [.stop s .hostLost env.now] := by
  have h := sound_run settings moves
  cases order_of_admits_attach (h.admits t _ htask)
  have hfits : (Job.attach sweep).Fits (run settings moves).books := h.fits t _ htask
  rcases hfits.right p.1 (List.of_mem_zip hp).left with ⟨hplaced, _, hhost⟩
  have hidentity := h.identity_of_placed hs hplaced hid
  exact .purged hidentity (hhost.symm.trans (congrArg Identity.hostId hidentity)) htask hp hdenied

theorem departs_undone (hs : (run settings moves).controller.store.get? s.id = some s) {u : Undo}
    (htask : (run settings moves).tasks t = some ⟨order, .asking (.start (.undoing u))⟩)
    (hid : u.provisional.id = s.id) : Departs settings moves s (.go t env replies) [] := by
  have h := sound_run settings moves
  have hfits : (Job.start (.undoing u)).Fits (run settings moves).books := h.fits t _ htask
  rcases exists_setsOut_of_run settings htask with ⟨before, move, after, hmoves, hout⟩
  cases hout with
  | begins _ hbegins =>
      cases hbegins
  | resumes hlaunch hresumes =>
      cases hresumes with
      | uncommitted hmerged hrefused =>
          have hconfirmed := Server.not_denies_of_bind hmerged
          rw [Server.id_of_identity (Server.identity_of_bind hmerged), hid] at hrefused
          rw [hid] at hconfirmed
          exact .undone (h.identity_of_placed hs hfits.left hid) hmoves hlaunch hconfirmed hrefused
            htask ⟨rfl, rfl⟩

theorem departs_of_resumes (hs : (run settings moves).controller.store.get? s.id = some s) {job : Job}
    {p : Progress Job Outcome} (htask : (run settings moves).tasks t = some ⟨order, .asking job⟩)
    (hresumes : (run settings moves).controller.Resumes env job replies es p) {e : Edit} (he : e ∈ es)
    (hgone : e.gone? = some s.id) (hrecord : ∀ r cause, e = .remove r cause → r = s) :
    Departs settings moves s (.go t env replies) (e.event? env.now).toList := by
  have h := sound_run settings moves
  have hid : e.id = s.id := Edit.id_of_gone? hgone
  cases hresumes with
  | committed _ | failedKept _ _ | undoneKept _ _ =>
      rw [List.mem_singleton.mp he] at hgone
      cases hgone
  | uncommitted _ _ | stopFailed _ =>
      cases he
  | @failed l r _ _ hmerged hidentity =>
      rw [List.mem_singleton.mp he] at hid ⊢
      have hfits : (Job.start (.launching l)).Fits (run settings moves).books := h.fits t _ htask
      have hprovisional := h.identity_of_placed hs hfits.left
        ((Server.id_of_identity hidentity).symm.trans hid)
      have hdenied := (Server.denies_iff l.provisional _ env.now).mpr ⟨_, hmerged⟩
      rw [show l.provisional.id = s.id from Server.id_of_identity hprovisional] at hdenied
      exact .failed hprovisional htask hdenied
  | undone _ hidentity =>
      rw [List.mem_singleton.mp he] at hid ⊢
      exact departs_undone hs htask ((Server.id_of_identity hidentity).symm.trans hid)
  | stopped hanswer hsame =>
      have hremove := List.mem_singleton.mp he
      rw [hremove] at hid ⊢
      rw [hrecord _ _ hremove]
      exact departs_stopped hs htask hanswer (hsame.symm.trans hid)
  | swept hsweeps =>
      rcases hsweeps.edits e he with ⟨m, rfl⟩ | ⟨r, rfl⟩
      · cases hgone
      · cases hrecord r _ rfl
        rcases (hsweeps.denied he).right with ⟨p, hp, hsame, hdenied⟩
        exact departs_purged hs htask hp hsame hdenied

theorem departs_of_goes (hs : (run settings moves).controller.store.get? s.id = some s)
    (hgoes : (run settings moves).Goes move now es w') {e : Edit} (he : e ∈ es)
    (hgone : e.gone? = some s.id) :
    Departs settings moves s move (e.event? now).toList := by
  have h := sound_run settings moves
  have hrecord : ∀ r cause, e = .remove r cause → r = s := by
    intro r cause hremove
    subst hremove
    have hr := hgoes.get?_of_remove h he
    rw [show r.id = s.id from Edit.id_of_gone? hgone, hs] at hr
    exact (Option.some.inj hr).symm
  cases hgoes with
  | still _ _ _ | weather | restart =>
      cases he
  | begin _ _ _ hbegins _ =>
      rcases begins_only_place hbegins he with ⟨r, rfl, _⟩
      cases hgone
  | resume hold _ _ hresumes _ =>
      exact departs_of_resumes hs hold hresumes he hgone hrecord
  | override _ _ _ =>
      rw [List.mem_singleton.mp he] at hgone
      cases hgone

/-!
# Stops in the history of a server
-/

theorem Sound.history_of_gone (h : w.Sound) {id : ServerId} (hplaced : id ∈ w.placed.map Identity.id)
    (habsent : id ∉ Store.ids w.controller.store.index) (more : List Move) :
    (w.history more).filter (FleetEvent.isAbout id) = [] := by
  induction more generalizing w with
  | nil =>
      rfl
  | cons move rest ih =>
      rcases h.gone hplaced habsent move with ⟨hplaced', habsent', hsilent⟩
      rw [history, List.filter_append, hsilent, ih (h.step move) hplaced' habsent', List.nil_append]

theorem filter_stops_isAbout (id : ServerId) (log : List FleetEvent) :
    (log.filter (FleetEvent.isAbout id)).filter (FleetEvent.stops id) =
      log.filter (FleetEvent.stops id) := by
  rw [List.filter_filter]
  apply List.filter_congr
  intro event _
  cases event with
  | stop s cause time =>
      exact Bool.and_self _
  | start _ _ _ | update _ _ _ =>
      rfl

theorem Departs.filter_stops {events : List FleetEvent} (h : Departs settings moves s move events) :
    events.filter (FleetEvent.stops s.id) = events := by
  cases h with
  | stopped _ _ _ _ _ _ _ | purged _ _ _ _ _ =>
      simp [FleetEvent.stops]
  | failed _ _ _ | undone _ _ _ _ _ _ _ =>
      rfl

end

/-- A record leaves the store with a stop of which the task has found the launch of the server over, once the
host registered for the server has confirmed its termination; with a registration of its host, which does
not confirm the server; or with its own start, when the launch has failed or the commit could not be
written.  In the first two cases the one stop of the server in the whole run is published with
this move, with the cause of the order or for the loss of the host, and in the last case there is none. -/
theorem records_leave_for_cause (settings : ControlSettings) (moves : List Move) (move : Move)
    (more : List Move) {s : Server} (hs : (run settings moves).controller.store.get? s.id = some s)
    (hnone : ((run settings moves).step move).controller.store.get? s.id = none) :
    ∃ events, Departs settings moves s move events ∧
      ((run settings moves).published move).filter (FleetEvent.isAbout s.id) = events ∧
      ((fresh settings).history (moves ++ move :: more)).filter (FleetEvent.stops s.id) = events := by
  have h := sound_run settings moves
  rcases h.goes move with ⟨now, es, hgoes⟩
  rcases hgoes.exists_gone h hs hnone with ⟨e, he, hgone⟩
  have hdeparts := departs_of_goes hs hgoes he hgone
  have hpublished : ((run settings moves).published move).filter (FleetEvent.isAbout s.id) =
      (e.event? now).toList := by
    rw [hgoes.published, ← Edit.id_of_gone? hgone]
    exact Edit.filter_isAbout (hgoes.nodup h) he
  refine ⟨_, hdeparts, hpublished, ?_⟩
  have hmem : s.id ∈ Store.ids (run settings moves).controller.store.index :=
    Store.exists_get?_iff.mp ⟨s, hs⟩
  -- It was not stopped before, as its record was there, and nothing more is heard of it when it is gone.
  have hbefore : ((fresh settings).history moves).filter (FleetEvent.stops s.id) = [] := by
    rw [← List.length_eq_zero_iff, ← List.countP_eq_length_filter]
    exact ((chronicled_run settings moves).stops s.id).right (Or.inl hmem)
  have hafter : (((run settings moves).step move).history more).filter (FleetEvent.stops s.id) = [] := by
    rw [← filter_stops_isAbout, (h.step move).history_of_gone
      (hgoes.mem_placed_ids (h.books.placed_of_ids hmem)) (Store.get?_eq_none_iff.mp hnone) more]
    rfl
  have hnow : ((run settings moves).published move).filter (FleetEvent.stops s.id) =
      (e.event? now).toList := by
    rw [← filter_stops_isAbout, hpublished, hdeparts.filter_stops]
  rw [history_append, ← run, history, List.filter_append, List.filter_append, hbefore, hnow, hafter]
  exact List.append_nil _

namespace Overlap

def early : List Move :=
  moves.take 11

def failure : Move :=
  .go 2 ⟨noon, Id.ofNat 8⟩ [⟨.error (.unreachable "old endpoint"), noon⟩]

theorem stored_early : (run settings early).controller.store.get? answer.id = some answer := by
  decide +kernel

theorem gone_failure : ((run settings early).step failure).controller.store.get? answer.id = none := by
  decide +kernel

end Overlap

open Overlap in
theorem records_leave_for_cause_overlap :
    (run settings early).controller.store.get? answer.id = some answer ∧
      ((run settings early).step failure).controller.store.get? answer.id = none ∧
      ∃ events, Departs settings early answer failure events ∧
        ((run settings early).published failure).filter (FleetEvent.isAbout answer.id) = events ∧
        ((fresh settings).history (early ++ failure :: [])).filter (FleetEvent.stops answer.id) =
          events :=
  ⟨stored_early, gone_failure, records_leave_for_cause settings early failure [] stored_early gone_failure⟩

namespace Overtaken

open Overlap

/-- A stop is ordered while its server is launched, and the host confirms the launch before the task of the
stop goes on. -/
def takenUp : List Move :=
  moves.take 5 ++ [
    .order (.stop server .api),
    .go 1 ⟨noon, Id.ofNat 8⟩ [⟨.ok answer, noon⟩],
    .go 2 ⟨noon, Id.ofNat 8⟩ []]

def terminated : Move :=
  .go 2 ⟨noon, Id.ofNat 8⟩ [⟨.ok answer, noon⟩]

theorem take_of_orders {earlier later : List Move} {ordering : Move} {cause : Cause}
    (hmoves : takenUp = earlier ++ ordering :: later)
    (horders : (run settings earlier).Orders ordering (.stop server cause)) :
    earlier = takenUp.take 5 := by
  have htake : earlier = takenUp.take earlier.length := by
    rw [hmoves, List.take_left]
  have hget : takenUp[earlier.length]? = some ordering := by
    rw [hmoves, List.getElem?_append_right (Nat.le_refl _), Nat.sub_self, List.getElem?_cons_zero]
  have hlength : earlier.length = 5 := by
    generalize earlier.length = k at hget
    rcases k with _ | _ | _ | _ | _ | _ | _ | _ | k <;> cases hget <;> cases horders
    rfl
  rw [htake, hlength]

end Overtaken

open Overlap Overtaken in
/-- The record of a server leaves with a stop, which is published with its cause, and whoever ordered a stop of the
server ordered it while the launch was in flight. -/
theorem stop_can_be_ordered_during_launch :
    (run settings takenUp).controller.store.get? server = some answer ∧
      ((run settings takenUp).step terminated).controller.store.get? server = none ∧
      (run settings takenUp).published terminated = [.stop answer .api noon] ∧
      ∀ earlier ordering later cause, takenUp = earlier ++ ordering :: later →
        (run settings earlier).Orders ordering (.stop server cause) →
        server ∈ (run settings earlier).controller.store.launching := by
  refine ⟨by decide +kernel, by decide +kernel, by decide +kernel, ?_⟩
  intro earlier ordering later cause hmoves horders
  rw [take_of_orders hmoves horders]
  decide +kernel

end Fleet
end ServerFleet
