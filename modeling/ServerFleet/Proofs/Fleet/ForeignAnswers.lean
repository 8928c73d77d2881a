import ServerFleet.Proofs.Fleet.Confinement
import ServerFleet.Proofs.Fleet.Fixpoint
import ServerFleet.Proofs.Fleet.Overrides

/-!
# Answers about other servers

A host that is asked about one server may answer with the record of another.  Starts and
registrations take such an answer for a failed call.  A stop does not look at the record
in the answer: any record confirms the termination.
-/

namespace ServerFleet

/-- What is made of the record of another server: a failed call. -/
def Server.mistaken (ours theirs : Server) : AgentError :=
  .malformed ("host answered for " ++ theirs.id.text ++ " while asked about " ++ ours.id.text)

theorem Server.merge_of_ne {ours theirs : Server} (h : theirs.id ≠ ours.id) (now : Time.Instant) :
    ours.merge theirs now = .error (ours.mistaken theirs) := by
  rw [merge, if_pos h]
  rfl

namespace Controller

variable {c : Controller} {env : Env} {work : StartWork} {k : Stopping} {sweep : Sweep} {s theirs : Server}
  {replies : List Reply} {reply : Reply} {i : Nat} {time : Time.Instant} {report : Report}
  {placed : List Identity}

/-!
# Starts
-/

theorem resumeStart_of_ne (h : theirs.id ≠ work.call.server.id) :
    c.resumeStart env work (.ok theirs) =
      c.resumeStart env work (.error (work.call.server.mistaken theirs)) := by
  cases work with
  | launching l =>
      have hmerge : l.provisional.merge theirs env.now = .error (l.provisional.mistaken theirs) :=
        Server.merge_of_ne h env.now
      simp only [resumeStart, Except.bind, hmerge]
      rfl
  | undoing u =>
      rfl

theorem Resumes.edits_of_ne {es : List Edit} {p : Progress Job Outcome}
    (h : c.Resumes env (.start work) [⟨.ok theirs, time⟩] es p)
    (hforeign : theirs.id ≠ work.call.server.id) :
    (∀ e ∈ es, (∃ r, e = .withdraw r) ∨ ∃ id, e = .land id) ∧ ∀ m, p ≠ .done (.server (.ok m)) := by
  have hunmerged {l : Launch} {m : Server} (hforeign : theirs.id ≠ l.provisional.id)
      (hmerged : ((single [⟨.ok theirs, time⟩]).bind fun theirs =>
        l.provisional.merge theirs env.now) = .ok m) : False := by
    have hok : l.provisional.merge theirs env.now = .ok m := hmerged
    rw [Server.merge_of_ne hforeign] at hok
    cases hok
  cases h with
  | committed hmerged =>
      exact (hunmerged hforeign hmerged).elim
  | uncommitted hmerged _ =>
      exact (hunmerged hforeign hmerged).elim
  | failed _ _ | undone _ _ =>
      exact ⟨fun e he => Or.inl ⟨_, List.mem_singleton.mp he⟩, fun m hm => nomatch hm⟩
  | failedKept _ _ | undoneKept _ _ =>
      exact ⟨fun e he => Or.inr ⟨_, List.mem_singleton.mp he⟩, fun m hm => nomatch hm⟩

/-!
# Registrations
-/

theorem settle_of_ne (h : theirs.id ≠ s.id) :
    c.settle env report s ⟨.ok theirs, time⟩ =
      c.settle env report s ⟨.error (s.mistaken theirs), time⟩ := by
  have hmerged : (⟨.ok theirs, time⟩ : Reply).merged s = .error (s.mistaken theirs) :=
    Server.merge_of_ne h time
  have hfailed : (⟨.error (s.mistaken theirs), time⟩ : Reply).merged s =
      .error (s.mistaken theirs) := rfl
  rw [settle, settle, hmerged, hfailed]

theorem settleAll_set (owned : List Server) (replies : List Reply) (hs : owned[i]? = some s)
    (hreply : replies[i]? = some ⟨.ok theirs, time⟩) (h : theirs.id ≠ s.id) (report : Report) :
    c.settleAll env report (owned.zip replies) =
      c.settleAll env report
        (owned.zip (replies.set i ⟨.error (s.mistaken theirs), time⟩)) := by
  induction owned generalizing c replies i report with
  | nil =>
      cases hs
  | cons first rest ih =>
      cases replies with
      | nil =>
          cases hreply
      | cons answered more =>
          cases i with
          | zero =>
              cases hs
              cases hreply
              rw [List.set_cons_zero, List.zip_cons_cons, List.zip_cons_cons, settleAll, settleAll,
                settle_of_ne h]
          | succ j =>
              exact ih more hs hreply _

theorem Sweeps.not_reattached {es : List Edit} (h : Sweeps .empty (sweep.owned.zip replies) es report)
    (hjob : (Job.attach sweep).Fits (c.books placed))
    (hpair : (s, ⟨.ok theirs, time⟩) ∈ sweep.owned.zip replies) (hforeign : theirs.id ≠ s.id) :
    s.id ∉ report.reattached := by
  intro hmem
  rcases h.reattached_iff.mp hmem with hnone | ⟨m, hm, hid⟩
  · cases hnone
  · rcases h.merged hm with ⟨p, hp, hmerged⟩
    have hasked : p.1.id = s.id :=
      (Server.id_of_identity (Server.identity_of_merged hmerged)).symm.trans hid
    -- No server is asked about twice, so this is the same reply.
    have hsame := List.inj_on_of_nodup_map (hjob.nodup_pairs replies) hp hpair hasked
    have hok : s.merge theirs time = .ok m := by
      rw [hsame] at hmerged
      exact hmerged
    rw [Server.merge_of_ne hforeign] at hok
    cases hok

/-!
# Stops
-/

/-- Whatever record a stop gets, it takes its server away if it can. -/
theorem finishStop_of_stored (h : c.store.Consistent) {r : Server}
    (hr : c.store.get? k.server.id = some r)
    (hrefusal : c.store.database.refusal (.deleteServer k.server.id.text) = none) (env : Env)
    (theirs : Server) :
    c.finishStop env k (.ok theirs) =
      (({ c with store := c.store.without k.server.id }.releaseNumber r).publish env
        (.stop r k.cause env.now), .ok r) := by
  simp only [finishStop, h.remove_eq, hr, hrefusal]

theorem finishStop_of_kept (h : c.store.Consistent)
    (hkept : c.store.get? k.server.id = none ∨
      ∃ reason, c.store.database.refusal (.deleteServer k.server.id.text) = some reason)
    (env : Env) (theirs : Server) : ∃ e, c.finishStop env k (.ok theirs) = (c, .error e) := by
  rcases hkept with hnone | ⟨reason, hrefusal⟩
  · exact ⟨.serverNotFound k.server.id, by simp only [finishStop, h.remove_eq, hnone]⟩
  · cases hget : c.store.get? k.server.id with
    | none =>
        exact ⟨.serverNotFound k.server.id, by simp only [finishStop, h.remove_eq, hget]⟩
    | some r =>
        exact ⟨.storage (.refused reason), by simp only [finishStop, h.remove_eq, hget, hrefusal]⟩

end Controller

namespace Fleet

variable {w : Fleet} {t i : Nat} {order : Order} {job : Job} {env : Env} {replies : List Reply}
  {call : AgentCall} {s theirs : Server} {time : Time.Instant}

/-!
# One step
-/

theorem Sound.goes_of_asking (h : w.Sound) (htask : w.tasks t = some ⟨order, .asking job⟩)
    (hanswered : replies.length = job.calls.length) (env : Env) :
    ∃ es, w.controller.Resumes env job replies es (w.controller.resume env job replies).2 ∧
      w.Goes (.go t env replies) env.now es (w.step (.go t env replies)) := by
  rcases Controller.resumes_resume env h.books (h.fits t _ htask) replies with ⟨es, hresumes, hedited⟩
  rw [← books_resume t order hresumes] at hedited
  refine ⟨es, hresumes, ?_⟩
  rw [Fleet.step, go_of_asking htask hanswered]
  exact .resume htask hanswered rfl hresumes hedited

theorem Sound.start_of_foreign {work : StartWork} (h : w.Sound)
    (htask : w.tasks t = some ⟨order, .asking (.start work)⟩) (hforeign : theirs.id ≠ work.call.server.id)
    (env : Env) (time : Time.Instant) :
    let w' := w.step (.go t env [⟨.ok theirs, time⟩])
    w' = w.step (.go t env [⟨.error (work.call.server.mistaken theirs), time⟩]) ∧
      w.published (.go t env [⟨.ok theirs, time⟩]) = [] ∧
      (∀ s, w'.tasks t ≠ some ⟨order, .ended (.server (.ok s))⟩) ∧
      ∀ id r, w'.controller.store.get? id = some r → w.controller.store.get? id = some r := by
  have hanswered : [(⟨.ok theirs, time⟩ : Reply)].length = (Job.start work).calls.length := rfl
  rcases h.goes_of_asking htask hanswered env with ⟨es, hresumes, hgoes⟩
  rcases hresumes.edits_of_ne hforeign with ⟨hedits, hunended⟩
  intro w'
  refine ⟨?_, ?_, ?_, ?_⟩
  · rw [show w' = _ from go_of_asking htask rfl env, Fleet.step, go_of_asking htask rfl env]
    simp only [Controller.resume, Controller.single, Controller.resumeStart_of_ne hforeign]
  · rw [hgoes.published, List.filterMap_eq_nil_iff]
    intro e he
    rcases hedits e he with ⟨r, rfl⟩ | ⟨id, rfl⟩
    · rfl
    · rfl
  · intro s hended
    have hmine : w'.tasks t =
        some ⟨order, (w.controller.resume env (.start work) [⟨.ok theirs, time⟩]).2.stage⟩ := by
      rw [show w' = _ from go_of_asking htask rfl env]
      exact Function.update_self _ _ _
    rw [hmine] at hended
    cases hp : (w.controller.resume env (.start work) [⟨.ok theirs, time⟩]).2 with
    | waiting job =>
        rw [hp] at hended
        cases hended
    | done outcome =>
        rw [hp] at hended
        cases hended
        exact hunended s hp
  · intro id r hr
    by_cases hedited : ∃ e ∈ es, e.id = id
    · rcases hedited with ⟨e, he, rfl⟩
      rw [hgoes.get?_of_mem h he] at hr
      rcases hedits e he with ⟨gone, rfl⟩ | ⟨landed, rfl⟩
      · cases hr
      · exact hr
    · have hothers : ∀ e ∈ es, e.id ≠ id := fun e he hid => hedited ⟨e, he, hid⟩
      exact (hgoes.get?_eq h hothers).symm.trans hr

theorem Sound.attach_of_foreign {sweep : Sweep} (h : w.Sound)
    (htask : w.tasks t = some ⟨order, .asking (.attach sweep)⟩)
    (hanswered : replies.length = sweep.owned.length) (hs : sweep.owned[i]? = some s)
    (hreply : replies[i]? = some ⟨.ok theirs, time⟩) (hforeign : theirs.id ≠ s.id) (env : Env) :
    let w' := w.step (.go t env replies)
    w' = w.step (.go t env (replies.set i ⟨.error (s.mistaken theirs), time⟩)) ∧
      (∀ report, w'.tasks t = some ⟨order, .ended (.attached sweep.host report)⟩ →
        s.id ∉ report.reattached) ∧
      w'.controller.store.get? s.id =
        if w.controller.store.database.refusal (.deleteServer s.id.text) = none then none
        else w.controller.store.get? s.id := by
  have hjob : (Job.attach sweep).Fits w.books := h.fits t _ htask
  have hcalls : (Job.attach sweep).calls.length = sweep.owned.length := List.length_map _
  have hpair : (s, ⟨.ok theirs, time⟩) ∈ sweep.owned.zip replies :=
    List.mem_of_getElem? (List.getElem?_zip_eq_some.mpr ⟨hs, hreply⟩)
  rcases h.goes_of_asking htask (hanswered.trans hcalls.symm) env with ⟨es, hresumes, hgoes⟩
  intro w'
  have hw' : w' = w.advance t order (w.controller.resume env (.attach sweep) replies) :=
    go_of_asking htask (hanswered.trans hcalls.symm) env
  refine ⟨?_, ?_, ?_⟩
  · have hset : (replies.set i ⟨.error (s.mistaken theirs), time⟩).length =
        (Job.attach sweep).calls.length := by
      rw [List.length_set, hanswered, hcalls]
    rw [hw', Fleet.step, go_of_asking htask hset]
    simp only [Controller.resume, Controller.finishAttach,
      Controller.settleAll_set sweep.owned replies hs hreply hforeign]
  · intro report hended
    rw [hw', tasks_advance, Function.update_self] at hended
    cases hresumes with
    | swept hsweeps =>
        cases hended
        exact hsweeps.not_reattached hjob hpair hforeign
  · rw [hw']
    refine (Controller.get?_settleAll env h.books _ (hjob.pairs replies) (hjob.nodup_pairs replies) .empty
      hpair).trans ?_
    rw [Reply.leaves, Reply.merged]
    simp only [Except.bind, Server.merge_of_ne hforeign]

theorem Sound.stop_of_foreign {k : Stopping} (h : w.Sound)
    (htask : w.tasks t = some ⟨order, .asking (.stop k)⟩) (theirs : Server) (env : Env)
    (time : Time.Instant) :
    let w' := w.step (.go t env [⟨.ok theirs, time⟩])
    let refusal := w.controller.store.database.refusal (.deleteServer k.server.id.text)
    (∀ r, w.controller.store.get? k.server.id = some r → refusal = none →
      w'.tasks t = some ⟨order, .ended (.server (.ok r))⟩ ∧
      w'.controller.store.Lacks k.server.id ∧
      w'.controller.numbers.isHeld r.group r.number.toNat = false ∧
      w.published (.go t env [⟨.ok theirs, time⟩]) = [.stop r k.cause env.now]) ∧
    (w.controller.store.get? k.server.id = none ∨ (∃ reason, refusal = some reason) →
      w'.controller = w.controller ∧
      ∃ e, w'.tasks t = some ⟨order, .ended (.server (.error e))⟩) := by
  have hstore : w.controller.store.Consistent := h.books.store
  intro w' refusal
  have hw' : w' = w.advance t order (w.controller.resume env (.stop k) [⟨.ok theirs, time⟩]) :=
    go_of_asking htask rfl env
  constructor
  · intro r hr hrefusal
    have hfinish := Controller.finishStop_of_stored hstore hr hrefusal env theirs
    have hgone : k.server.id ∉ Store.ids (w.controller.store.without k.server.id).index := fun hid =>
      ((Store.ids_without _ _).mp hid).right rfl
    have hlacks := (hstore.without k.server.id).lacks hgone
    rw [published, show w.step (.go t env [⟨.ok theirs, time⟩]) = w' from rfl, hw']
    simp only [Controller.resume, Controller.single, hfinish]
    refine ⟨Function.update_self _ _ _, ⟨hlacks.index, hlacks.table⟩, ?_, ?_⟩
    · rw [← Bool.not_eq_true, Numbers.isHeld_iff]
      exact fun hheld => (Numbers.mem_release.mp hheld).right rfl
    · show List.drop w.controller.feed.events.length
        (w.controller.feed.publish eventTopic (.stop r k.cause env.now) env.now).events = _
      rw [Feed.events_publish]
      exact List.drop_left
  · intro hkept
    rcases Controller.finishStop_of_kept hstore hkept env theirs with ⟨e, hfinish⟩
    rw [hw']
    simp only [Controller.resume, Controller.single, hfinish]
    exact ⟨rfl, e, Function.update_self _ _ _⟩

/-!
# Every run
-/

theorem eq_singleton_of_answered {asked : AgentCall} {reply : Reply} (hcalls : job.calls = [asked])
    (hanswered : replies.length = job.calls.length) (hcall : job.calls[i]? = some call)
    (hreply : replies[i]? = some reply) : i = 0 ∧ call = asked ∧ replies = [reply] := by
  rw [hcalls] at hanswered hcall
  rcases List.length_eq_one_iff.mp hanswered with ⟨only, rfl⟩
  cases i with
  | zero =>
      cases hcall
      cases hreply
      exact ⟨rfl, rfl, rfl⟩
  | succ j =>
      cases hcall

/-- A host has answered a call with the record of another server.  A start and a registration go on as if
the call had failed: a start does not end well, publishes nothing and writes no record, and a
registration does not refresh the record, but purges it if it can.  A stop goes on as if the host had
confirmed the termination: it only fails if there is no record to delete or it may not be deleted. -/
theorem foreign_answers (settings : ControlSettings) (moves : List Move) (env : Env)
    (htask : (run settings moves).tasks t = some ⟨order, .asking job⟩)
    (hanswered : replies.length = job.calls.length) (hcall : job.calls[i]? = some call)
    (hreply : replies[i]? = some ⟨.ok theirs, time⟩) (hforeign : theirs.id ≠ call.server.id) :
    let w := run settings moves
    let w' := w.step (.go t env replies)
    let failed := w.step (.go t env (replies.set i ⟨.error (call.server.mistaken theirs), time⟩))
    let refusal := w.controller.store.database.refusal (.deleteServer call.server.id.text)
    (∀ work, job = .start work → w' = failed ∧ w.published (.go t env replies) = [] ∧
      (∀ s, w'.tasks t ≠ some ⟨order, .ended (.server (.ok s))⟩) ∧
      ∀ id r, w'.controller.store.get? id = some r → w.controller.store.get? id = some r) ∧
    (∀ sweep, job = .attach sweep → w' = failed ∧
      (∀ report, w'.tasks t = some ⟨order, .ended (.attached sweep.host report)⟩ →
        call.server.id ∉ report.reattached) ∧
      w'.controller.store.get? call.server.id =
        if refusal = none then none else w.controller.store.get? call.server.id) ∧
    ∀ k, job = .stop k → w' = w.step (.go t env [⟨.ok k.server, time⟩]) ∧
      (∀ r, w.controller.store.get? call.server.id = some r → refusal = none →
        w'.tasks t = some ⟨order, .ended (.server (.ok r))⟩ ∧
        w'.controller.store.Lacks call.server.id ∧
        w'.controller.numbers.isHeld r.group r.number.toNat = false ∧
        w.published (.go t env replies) = [.stop r k.cause env.now]) ∧
      (w.controller.store.get? call.server.id = none ∨ (∃ reason, refusal = some reason) →
        w'.controller = w.controller ∧
        ∃ e, w'.tasks t = some ⟨order, .ended (.server (.error e))⟩) := by
  have h := sound_run settings moves
  intro w w' failed refusal
  refine ⟨?_, ?_, ?_⟩
  · rintro work rfl
    rcases eq_singleton_of_answered rfl hanswered hcall hreply with ⟨rfl, rfl, rfl⟩
    exact h.start_of_foreign htask hforeign env time
  · rintro sweep rfl
    rcases Option.map_eq_some_iff.mp (List.getElem?_map.symm.trans hcall) with ⟨s, hs, rfl⟩
    exact h.attach_of_foreign htask (hanswered.trans (List.length_map _)) hs hreply hforeign env
  · rintro k rfl
    rcases eq_singleton_of_answered rfl hanswered hcall hreply with ⟨rfl, rfl, rfl⟩
    refine ⟨?_, h.stop_of_foreign htask theirs env time⟩
    rw [show w' = _ from go_of_asking htask rfl env, Fleet.step, go_of_asking htask rfl env]
    rfl

/-!
# A stop that takes the wrong answer
-/

def stopping? (w : Fleet) (t : Nat) : Option Stopping :=
  match w.tasks t with
  | some ⟨_, .asking (.stop k)⟩ => some k
  | _ => none

theorem task_of_stopping? {k : Stopping} (h : w.stopping? t = some k) :
    ∃ order, w.tasks t = some ⟨order, .asking (.stop k)⟩ := by
  rw [stopping?] at h
  split at h
  next htask =>
    cases h
    exact ⟨_, htask⟩
  next =>
    cases h

namespace Mistaken

open Overlap

def before : List Move :=
  moves.take 6 ++ [.order (.stop server .api), .go 2 ⟨noon, Id.ofNat 8⟩ []]

def work : Stopping :=
  ⟨host, answer, .api⟩

def other : Server :=
  { answer with id := Id.ofNat 9 }

def answered : Move :=
  .go 2 ⟨noon, Id.ofNat 8⟩ [⟨.ok other, noon⟩]

theorem asking : ∃ order, (run settings before).tasks 2 = some ⟨order, .asking (.stop work)⟩ :=
  task_of_stopping? (by decide +kernel)

end Mistaken

open Mistaken Overlap in
/-- The host answers with the record of another server, and the stop ends well: the record is gone, its
number is free and the stop is published. -/
theorem stop_accepts_foreign_answer :
    other.id ≠ work.call.server.id ∧
      (∃ order, (run settings before).tasks 2 = some ⟨order, .asking (.stop work)⟩) ∧
      (∃ order, ((run settings before).step answered).tasks 2 =
        some ⟨order, .ended (.server (.ok answer))⟩) ∧
      (run settings before).controller.store.get? server = some answer ∧
      ((run settings before).step answered).controller.store.get? server = none ∧
      ((run settings before).step answered).controller.numbers.isHeld "lobby" 1 = false ∧
      (run settings before).published answered ≠ [] := by
  refine ⟨by decide, asking, task_of_started? (by decide +kernel), by decide +kernel, by decide +kernel,
    by decide +kernel, ?_⟩
  rw [← List.length_pos_iff]
  decide +kernel

open Mistaken Overlap in
theorem foreign_answers_stop :
    ∃ order, (run settings before).tasks 2 = some ⟨order, .asking (.stop work)⟩ ∧
      other.id ≠ work.call.server.id ∧
      ((run settings before).step answered).tasks 2 = some ⟨order, .ended (.server (.ok answer))⟩ ∧
      ((run settings before).step answered).controller.store.Lacks server ∧
      (run settings before).published answered = [.stop answer .api noon] := by
  rcases asking with ⟨order, htask⟩
  have hforeign : other.id ≠ work.call.server.id := by decide
  have hanswered : [(⟨.ok other, noon⟩ : Reply)].length = (Job.stop work).calls.length := rfl
  have hcall : (Job.stop work).calls[0]? = some work.call := rfl
  have hreply : [(⟨.ok other, noon⟩ : Reply)][0]? = some ⟨.ok other, noon⟩ := rfl
  have hstop := (foreign_answers settings before ⟨noon, Id.ofNat 8⟩ htask hanswered hcall hreply
    hforeign).right.right work rfl
  have hended := hstop.right.left answer (by decide +kernel) (by decide +kernel)
  exact ⟨order, htask, hforeign, hended.left, hended.right.left, hended.right.right.right⟩

end Fleet
end ServerFleet
