import ServerFleet.Proofs.Fleet.Operations

/-!
# What answers can do

The steps of jobs whose calls were answered, again told by the edits they make.  A
job that fits the books knows servers that were placed, and a start keeps the launch
of its own server in flight while everybody else's servers have landed.
-/

namespace ServerFleet

def StartWork.provisional : StartWork → Server
  | .launching l => l.provisional
  | .undoing u => u.provisional

def Job.launch? : Job → Option ServerId
  | .start work => some work.provisional.id
  | .stop _ => none
  | .attach _ => none

def Job.Fits (b : Books) : Job → Prop
  | .start work =>
      work.provisional.identity ∈ b.placed ∧ work.provisional.id ∈ b.store.launching ∧
        ∀ u, work = .undoing u → u.confirmed.identity = u.provisional.identity ∧
          ∃ reason, u.failure = some (.refused reason)
  | .stop k => k.server.identity ∈ b.placed ∧ k.server.id ∉ b.store.launching
  | .attach w =>
      (Store.ids w.owned).Nodup ∧ ∀ s ∈ w.owned,
        s.identity ∈ b.placed ∧ s.id ∉ b.store.launching ∧ s.hostId = w.host.id

theorem ids_zip_sublist (servers : List Server) (replies : List Reply) :
    ((servers.zip replies).map fun p => p.1.id).Sublist (Store.ids servers) := by
  induction servers generalizing replies with
  | nil =>
      exact List.Sublist.refl _
  | cons s rest ih =>
      cases replies with
      | nil =>
          exact List.nil_sublist _
      | cons reply replies =>
          exact (ih replies).cons_cons _

theorem Job.Fits.nodup_pairs {b : Books} {sweep : Sweep} (h : (Job.attach sweep).Fits b)
    (replies : List Reply) : ((sweep.owned.zip replies).map fun p => p.1.id).Nodup :=
  h.left.sublist (ids_zip_sublist _ _)

theorem Job.Fits.pairs {b : Books} {sweep : Sweep} (h : (Job.attach sweep).Fits b)
    (replies : List Reply) :
    ∀ p ∈ sweep.owned.zip replies, p.1.identity ∈ b.placed ∧ p.1.id ∉ b.store.launching := by
  intro p hp
  have howned := h.right p.1 (List.of_mem_zip hp).left
  exact ⟨howned.left, howned.right.left⟩

theorem Server.identity_of_merged {s m : Server} {reply : Reply} (h : reply.merged s = .ok m) :
    m.identity = s.identity :=
  Server.identity_of_bind h

namespace Controller

/-- How the replies about servers are taken: what was told before, what is edited, and what is told then. -/
inductive Sweeps : Report → List (Server × Reply) → List Edit → Report → Prop where
  | nil (report : Report) : Sweeps report [] [] report
  | refreshed {report report' : Report} {s m : Server} {reply : Reply}
      {rest : List (Server × Reply)} {es : List Edit} (hmerged : reply.merged s = .ok m)
      (hrest : Sweeps { report with reattached := report.reattached ++ [s.id] } rest es report') :
      Sweeps report ((s, reply) :: rest) (.refresh m :: es) report'
  | purged {report report' : Report} {s r : Server} {reply : Reply} {e : AgentError}
      {rest : List (Server × Reply)} {es : List Edit} (hmerged : reply.merged s = .error e)
      (hid : r.id = s.id)
      (hrest : Sweeps { report with purged := report.purged ++ [s.id] } rest es report') :
      Sweeps report ((s, reply) :: rest) (.remove r .hostLost :: es) report'
  | absent {report report' : Report} {s : Server} {reply : Reply}
      {rest : List (Server × Reply)} {es : List Edit} (hrest : Sweeps report rest es report') :
      Sweeps report ((s, reply) :: rest) es report'
  | failed {report report' : Report} {s : Server} {reply : Reply} {reason : String}
      {rest : List (Server × Reply)} {es : List Edit}
      (hrest : Sweeps { report with failed := report.failed ++ [(s.id, .refused reason)] } rest es
        report') :
      Sweeps report ((s, reply) :: rest) es report'

/-- How a job can go on. -/
inductive Resumes (c : Controller) (env : Env) :
    Job → List Reply → List Edit → Progress Job Outcome → Prop where
  | committed {l : Launch} {m : Server} {replies : List Reply}
      (hmerged : ((single replies).bind fun theirs => l.provisional.merge theirs env.now) = .ok m) :
      Resumes c env (.start (.launching l)) replies [.commit m l.cause] (.done (.server (.ok m)))
  | uncommitted {l : Launch} {m : Server} {replies : List Reply} {reason : String}
      (hmerged : ((single replies).bind fun theirs => l.provisional.merge theirs env.now) = .ok m)
      (hrefused : c.store.database.refusal (.saveServer m.id.text) = some reason) :
      Resumes c env (.start (.launching l)) replies []
        (.waiting (.start (.undoing ⟨l.host, l.provisional, m, some (.refused reason)⟩)))
  | failed {l : Launch} {r : Server} {e : AgentError} {replies : List Reply}
      (hmerged : ((single replies).bind fun theirs => l.provisional.merge theirs env.now) = .error e)
      (hidentity : r.identity = l.provisional.identity) :
      Resumes c env (.start (.launching l)) replies [.withdraw r]
        (.done (.server (.error (.agent e))))
  | failedKept {l : Launch} {e : AgentError} {replies : List Reply} {reason : String}
      (hmerged : ((single replies).bind fun theirs => l.provisional.merge theirs env.now) = .error e)
      (hrefused : c.store.database.refusal (.deleteServer l.provisional.id.text) = some reason) :
      Resumes c env (.start (.launching l)) replies [.land l.provisional.id]
        (.done (.server (.error (.agent e))))
  | undone {u : Undo} {r : Server} {replies : List Reply} {reason : String}
      (hfailure : u.failure = some (.refused reason))
      (hidentity : r.identity = u.provisional.identity) :
      Resumes c env (.start (.undoing u)) replies [.withdraw r]
        (.done (.server (.error (.storage (.refused reason)))))
  | undoneKept {u : Undo} {replies : List Reply} {reason reason' : String}
      (hfailure : u.failure = some (.refused reason))
      (hrefused : c.store.database.refusal (.deleteServer u.provisional.id.text) = some reason') :
      Resumes c env (.start (.undoing u)) replies [.land u.provisional.id]
        (.done (.server (.error (.storage (.refused reason)))))
  | stopFailed {k : Stopping} {replies : List Reply} {e : ControlError} (he : e.Possible) :
      Resumes c env (.stop k) replies [] (.done (.server (.error e)))
  | stopped {k : Stopping} {replies : List Reply} {answer r : Server}
      (hanswer : single replies = .ok answer) (hid : r.id = k.server.id) :
      Resumes c env (.stop k) replies [.remove r k.cause] (.done (.server (.ok r)))
  | swept {w : Sweep} {replies : List Reply} {es : List Edit} {report : Report}
      (hsweeps : Sweeps .empty (w.owned.zip replies) es report) :
      Resumes c env (.attach w) replies es (.done (.attached w.host report))

theorem Sweeps.edits {report report' : Report} {pairs : List (Server × Reply)} {es : List Edit}
    (h : Sweeps report pairs es report') :
    ∀ e ∈ es, (∃ m, e = .refresh m) ∨ ∃ r, e = .remove r .hostLost := by
  induction h with
  | nil report =>
      intro e he
      cases he
  | refreshed _ _ ih =>
      intro e he
      rcases List.mem_cons.mp he with rfl | he
      · exact Or.inl ⟨_, rfl⟩
      · exact ih e he
  | purged _ _ _ ih =>
      intro e he
      rcases List.mem_cons.mp he with rfl | he
      · exact Or.inr ⟨_, rfl⟩
      · exact ih e he
  | absent _ ih =>
      exact ih
  | failed _ ih =>
      exact ih

theorem Sweeps.quiet {report report' : Report} {pairs : List (Server × Reply)} {es : List Edit}
    (h : Sweeps report pairs es report') : ∀ e ∈ es, e.begun? = none ∧ e.ended? = none := by
  intro e he
  rcases h.edits e he with ⟨m, rfl⟩ | ⟨r, rfl⟩
  · exact ⟨rfl, rfl⟩
  · exact ⟨rfl, rfl⟩

theorem Sweeps.about {report report' : Report} {pairs : List (Server × Reply)} {es : List Edit}
    (h : Sweeps report pairs es report') : ∀ e ∈ es, ∃ p ∈ pairs, p.1.id = e.id := by
  have hlater {pairs : List (Server × Reply)} {p : Server × Reply} {e : Edit}
      (h : ∃ q ∈ pairs, q.1.id = e.id) : ∃ q ∈ p :: pairs, q.1.id = e.id := by
    rcases h with ⟨q, hq, hid⟩
    exact ⟨q, List.mem_cons_of_mem p hq, hid⟩
  induction h with
  | nil report =>
      intro e he
      cases he
  | refreshed hmerged _ ih =>
      intro e he
      rcases List.mem_cons.mp he with rfl | he
      · exact ⟨_, List.mem_cons_self, (Server.id_of_identity (Server.identity_of_merged hmerged)).symm⟩
      · exact hlater (ih e he)
  | purged _ hid _ ih =>
      intro e he
      rcases List.mem_cons.mp he with rfl | he
      · exact ⟨_, List.mem_cons_self, hid.symm⟩
      · exact hlater (ih e he)
  | absent _ ih =>
      intro e he
      exact hlater (ih e he)
  | failed _ ih =>
      intro e he
      exact hlater (ih e he)

theorem Sweeps.merged {report report' : Report} {pairs : List (Server × Reply)} {es : List Edit}
    (h : Sweeps report pairs es report') {m : Server} (hm : .refresh m ∈ es) :
    ∃ p ∈ pairs, p.2.merged p.1 = .ok m := by
  have hlater {pairs : List (Server × Reply)} {p : Server × Reply}
      (h : ∃ q ∈ pairs, q.2.merged q.1 = .ok m) : ∃ q ∈ p :: pairs, q.2.merged q.1 = .ok m := by
    rcases h with ⟨q, hq, hmerged⟩
    exact ⟨q, List.mem_cons_of_mem p hq, hmerged⟩
  induction h with
  | nil report =>
      cases hm
  | refreshed hmerged _ ih =>
      rcases List.mem_cons.mp hm with hfirst | hm
      · cases hfirst
        exact ⟨_, List.mem_cons_self, hmerged⟩
      · exact hlater (ih hm)
  | purged _ _ _ ih =>
      rcases List.mem_cons.mp hm with hfirst | hm
      · cases hfirst
      · exact hlater (ih hm)
  | absent _ ih =>
      exact hlater (ih hm)
  | failed _ ih =>
      exact hlater (ih hm)

theorem Sweeps.sublist {report report' : Report} {pairs : List (Server × Reply)} {es : List Edit}
    (h : Sweeps report pairs es report') : (es.map Edit.id).Sublist (pairs.map fun p => p.1.id) := by
  induction h with
  | nil report =>
      exact List.Sublist.refl _
  | refreshed hmerged _ ih =>
      have hid := Server.id_of_identity (Server.identity_of_merged hmerged)
      rw [List.map_cons, List.map_cons, Edit.id, hid]
      exact ih.cons_cons _
  | purged _ hid _ ih =>
      rw [List.map_cons, List.map_cons, Edit.id, hid]
      exact ih.cons_cons _
  | absent _ ih =>
      exact ih.cons _
  | failed _ ih =>
      exact ih.cons _

theorem Sweeps.reattached_iff {report report' : Report} {pairs : List (Server × Reply)} {es : List Edit}
    (h : Sweeps report pairs es report') {id : ServerId} :
    id ∈ report'.reattached ↔ id ∈ report.reattached ∨ ∃ m, Edit.refresh m ∈ es ∧ m.id = id := by
  induction h with
  | nil report =>
      simp
  | refreshed hmerged _ ih =>
      have hid := Server.id_of_identity (Server.identity_of_merged hmerged)
      rw [ih]
      simp [or_and_right, exists_or, hid, or_assoc, eq_comm]
  | purged _ _ _ ih =>
      rw [ih]
      simp
  | absent _ ih =>
      exact ih
  | failed _ ih =>
      exact ih

theorem Sweeps.purged_iff {report report' : Report} {pairs : List (Server × Reply)} {es : List Edit}
    (h : Sweeps report pairs es report') {id : ServerId} :
    id ∈ report'.purged ↔ id ∈ report.purged ∨ ∃ e ∈ es, e.gone? = some id := by
  induction h with
  | nil report =>
      simp
  | refreshed _ _ ih =>
      rw [ih]
      simp [Edit.gone?]
  | purged _ hid _ ih =>
      rw [ih]
      simp [Edit.gone?, hid, or_assoc, eq_comm]
  | absent _ ih =>
      exact ih
  | failed _ ih =>
      exact ih

theorem Sweeps.refused {report report' : Report} {pairs : List (Server × Reply)} {es : List Edit}
    (h : Sweeps report pairs es report') (hreport : ∀ entry ∈ report.failed, entry.2 ≠ .numberTaken) :
    ∀ entry ∈ report'.failed, entry.2 ≠ .numberTaken := by
  induction h with
  | nil report =>
      exact hreport
  | refreshed _ _ ih =>
      exact ih hreport
  | purged _ _ _ ih =>
      exact ih hreport
  | absent _ ih =>
      exact ih hreport
  | failed _ ih =>
      apply ih
      intro entry hentry
      rcases List.mem_append.mp hentry with hentry | hentry
      · exact hreport entry hentry
      · rw [List.mem_singleton.mp hentry]
        intro hclash
        cases hclash

variable {c : Controller} {env : Env} {placed : List Identity}

/-!
# Launches
-/

theorem launching_record (h : (c.books placed).Sound) {s : Server} (hplaced : s.identity ∈ placed)
    (hlaunching : s.id ∈ c.store.launching) :
    ∃ r, c.store.get? s.id = some r ∧ r.identity = s.identity := by
  rcases Store.exists_get?_iff.mpr (h.launching s.id hlaunching) with ⟨r, hr⟩
  have hmem := Store.mem_of_get? hr
  exact ⟨r, hr, h.identity_eq (h.placed r hmem.left) hplaced hmem.right⟩

theorem rollBack_cases (env : Env) (h : (c.books placed).Sound) {s : Server} (hplaced : s.identity ∈ placed)
    (hlaunching : s.id ∈ c.store.launching) :
    (∃ r, r.identity = s.identity ∧ (Edit.withdraw r).Fits (c.books placed) ∧
      ((c.rollBack s).endLaunch s.id).books placed =
        (c.books placed).edit env.now (.withdraw r)) ∨
    ∃ reason, c.store.database.refusal (.deleteServer s.id.text) = some reason ∧
      ((c.rollBack s).endLaunch s.id).books placed =
        (c.books placed).edit env.now (.land s.id) := by
  have hstore : c.store.Consistent := h.store
  rcases launching_record h hplaced hlaunching with ⟨r, hr, hidentity⟩
  have hid : r.id = s.id := Server.id_of_identity hidentity
  cases hremove : c.store.remove s.id with
  | error e =>
      rcases (hstore.remove_eq_error_iff.mp hremove).right with ⟨reason, hrefused, _⟩
      refine Or.inr ⟨reason, hrefused, ?_⟩
      rw [rollBack, hremove]
      rfl
  | ok found =>
      cases found with
      | none =>
          exact absurd (h.launching s.id hlaunching) (hstore.remove_eq_none_iff.mp hremove)
      | some found =>
          rcases hstore.remove_eq_some_iff.mp hremove with ⟨_, _, hwithout⟩
          refine Or.inl ⟨r, hidentity, ⟨(Store.mem_of_get? hr).left, hid ▸ hlaunching⟩, ?_⟩
          have hgroup : r.group = s.group := congrArg Identity.group hidentity
          have hnumber : r.number = s.number := congrArg Identity.number hidentity
          rw [rollBack, hremove]
          simp only [hwithout, books, endLaunch, releaseNumber, Books.edit, Edit.store, Edit.numbers,
            Edit.event?, Edit.placed, hid, hgroup, hnumber]
          rfl

theorem commit_cases (env : Env) (h : (c.books placed).Sound) {l : Launch} {m : Server}
    (hplaced : l.provisional.identity ∈ placed) (hlaunching : l.provisional.id ∈ c.store.launching)
    (hidentity : m.identity = l.provisional.identity) :
    (∃ c', c.commit env l m = (c', .done (.ok m)) ∧ (Edit.commit m l.cause).Fits (c.books placed) ∧
      c'.books placed = (c.books placed).edit env.now (.commit m l.cause)) ∨
    ∃ reason, c.store.database.refusal (.saveServer m.id.text) = some reason ∧
      c.commit env l m =
        (c, .waiting (.undoing ⟨l.host, l.provisional, m, some (.refused reason)⟩)) := by
  have hstore : c.store.Consistent := h.store
  have hid : m.id = l.provisional.id := Server.id_of_identity hidentity
  have hlaunchingm : m.id ∈ c.store.launching := hid ▸ hlaunching
  have hids : m.id ∈ Store.ids c.store.index := h.launching m.id hlaunchingm
  have hplacedm : m.identity ∈ placed := hidentity ▸ hplaced
  cases hreplace : c.store.replace m with
  | error e =>
      have hsave := (Store.replace_eq_error_iff.mp hreplace).right
      rcases hstore.save_eq_error_iff.mp hsave with ⟨reason, hrefused, he⟩ | ⟨_, hoccupied, _⟩
      · refine Or.inr ⟨reason, hrefused, ?_⟩
        rw [commit, hreplace, he]
      · exact absurd hoccupied (h.not_occupied_of_placed hplacedm hids)
  | ok found =>
      cases found with
      | none =>
          exact absurd hids (Store.replace_eq_none_iff.mp hreplace)
      | some store =>
          have hsave := (Store.replace_eq_some_iff.mp hreplace).right
          rcases hstore.save_eq_ok_iff.mp hsave with ⟨_, _, hstored⟩
          refine Or.inl ⟨_, by rw [commit, hreplace], ⟨hplacedm, hlaunchingm⟩, ?_⟩
          rw [hstored, ← hid]
          rfl

/-!
# Removals
-/

theorem remove_cases (h : (c.books placed).Sound) (id : ServerId) :
    (c.store.remove id = .ok none ∧ id ∉ Store.ids c.store.index) ∨
    (∃ reason, c.store.remove id = .error (.refused reason)) ∨
    ∃ r, r ∈ c.store.index ∧ r.id = id ∧
      c.store.remove id = .ok (some (r, c.store.without id)) := by
  have hstore : c.store.Consistent := h.store
  cases hremove : c.store.remove id with
  | error e =>
      rcases (hstore.remove_eq_error_iff.mp hremove).right with ⟨reason, _, he⟩
      exact Or.inr (Or.inl ⟨reason, by rw [he]⟩)
  | ok found =>
      cases found with
      | none =>
          exact Or.inl ⟨rfl, hstore.remove_eq_none_iff.mp hremove⟩
      | some found =>
          cases found with
          | mk r store =>
              rcases hstore.remove_eq_some_iff.mp hremove with ⟨hget, _, hwithout⟩
              have hr := Store.mem_of_get? hget
              exact Or.inr (Or.inr ⟨r, hr.left, hr.right, by rw [hwithout]⟩)

theorem finishStop_resumes (h : (c.books placed).Sound) {k : Stopping} (replies : List Reply)
    (hlanded : k.server.id ∉ c.store.launching) :
    ∃ es, Resumes c env (.stop k) replies es
        (.done (.server (c.finishStop env k (single replies)).2)) ∧
      (c.books placed).Edited env.now es
        ((c.finishStop env k (single replies)).1.books placed) := by
  cases hanswer : single replies with
  | error e =>
      exact ⟨[], .stopFailed trivial, .nil _⟩
  | ok answer =>
      rcases remove_cases h k.server.id with ⟨hremove, _⟩ | ⟨reason, hremove⟩ | ⟨r, hr, hid, hremove⟩
      · simp only [finishStop, hremove]
        exact ⟨[], .stopFailed trivial, .nil _⟩
      · simp only [finishStop, hremove]
        exact ⟨[], .stopFailed trivial, .nil _⟩
      · simp only [finishStop, hremove]
        refine ⟨_, .stopped hanswer hid, ?_⟩
        have hfits : (Edit.remove r k.cause).Fits (c.books placed) := ⟨hr, hid ▸ hlanded⟩
        rw [← hid]
        exact .single hfits

/-!
# Sweeps
-/

theorem purge_cases (env : Env) (h : (c.books placed).Sound) {id : ServerId} (hlanded : id ∉ c.store.launching) :
    c.purge env id = (c, .ok false) ∨
    (∃ reason, c.purge env id = (c, .error (.refused reason))) ∨
    ∃ r c', r.id = id ∧ c.purge env id = (c', .ok true) ∧
      (Edit.remove r .hostLost).Fits (c.books placed) ∧
      c'.books placed = (c.books placed).edit env.now (.remove r .hostLost) := by
  rcases remove_cases h id with ⟨hremove, _⟩ | ⟨reason, hremove⟩ | ⟨r, hr, hid, hremove⟩
  · exact Or.inl (by rw [purge, hremove])
  · exact Or.inr (Or.inl ⟨reason, by rw [purge, hremove]⟩)
  · refine Or.inr (Or.inr ⟨r, _, hid, by rw [purge, hremove], ⟨hr, hid ▸ hlanded⟩, ?_⟩)
    rw [← hid]
    rfl

theorem settle_cases (env : Env) (h : (c.books placed).Sound) {s : Server} (hplaced : s.identity ∈ placed)
    (hlanded : s.id ∉ c.store.launching) (report : Report) (reply : Reply) :
    (∃ m c', reply.merged s = .ok m ∧ c.settle env report s reply =
        (c', { report with reattached := report.reattached ++ [s.id] }) ∧
      (Edit.refresh m).Fits (c.books placed) ∧
      c'.books placed = (c.books placed).edit env.now (.refresh m)) ∨
    (∃ e r c', reply.merged s = .error e ∧ r.id = s.id ∧ c.settle env report s reply =
        (c', { report with purged := report.purged ++ [s.id] }) ∧
      (Edit.remove r .hostLost).Fits (c.books placed) ∧
      c'.books placed = (c.books placed).edit env.now (.remove r .hostLost)) ∨
    c.settle env report s reply = (c, report) ∨
    ∃ reason, c.settle env report s reply =
      (c, { report with failed := report.failed ++ [(s.id, .refused reason)] }) := by
  have hstore : c.store.Consistent := h.store
  cases hmerged : reply.merged s with
  | error e =>
      rcases purge_cases env h hlanded with
        hpurge | ⟨reason, hpurge⟩ | ⟨r, c', hid, hpurge, hfits, hbooks⟩
      · exact Or.inr (Or.inr (Or.inl (by rw [settle, hmerged, hpurge])))
      · exact Or.inr (Or.inr (Or.inr ⟨reason, by rw [settle, hmerged, hpurge]⟩))
      · exact Or.inr (Or.inl ⟨e, r, c', rfl, hid, by rw [settle, hmerged, hpurge], hfits, hbooks⟩)
  | ok m =>
      have hidentity := Server.identity_of_merged hmerged
      have hid : m.id = s.id := Server.id_of_identity hidentity
      cases hreplace : c.store.replace m with
      | error e =>
          rcases Store.replace_eq_error_iff.mp hreplace with ⟨hids, hsave⟩
          rcases hstore.save_eq_error_iff.mp hsave with ⟨reason, _, he⟩ | ⟨_, hoccupied, _⟩
          · refine Or.inr (Or.inr (Or.inr ⟨reason, ?_⟩))
            simp only [settle, hmerged, hreplace, he]
          · exact absurd hoccupied (h.not_occupied_of_placed (hidentity ▸ hplaced) hids)
      | ok found =>
          cases found with
          | none =>
              exact Or.inr (Or.inr (Or.inl (by simp only [settle, hmerged, hreplace])))
          | some store =>
              rcases Store.replace_eq_some_iff.mp hreplace with ⟨hids, hsave⟩
              rcases hstore.save_eq_ok_iff.mp hsave with ⟨_, _, hstored⟩
              have hsettle : c.settle env report s reply =
                  ({ c with store }, { report with reattached := report.reattached ++ [s.id] }) := by
                simp only [settle, hmerged, hreplace]
              refine Or.inl ⟨m, _, rfl, hsettle, ⟨hidentity ▸ hplaced, hids, hid ▸ hlanded⟩, ?_⟩
              rw [hstored]
              rfl

/-- No reply but one about a server itself touches the server, so the sweep comes to each of them as it
was left by everybody else. -/
theorem settleAll_sweeps (env : Env) (h : (c.books placed).Sound) (pairs : List (Server × Reply))
    (hfits : ∀ p ∈ pairs, p.1.identity ∈ placed ∧ p.1.id ∉ c.store.launching) (report : Report) :
    ∃ es, Sweeps report pairs es (c.settleAll env report pairs).2 ∧
      (c.books placed).Edited env.now es ((c.settleAll env report pairs).1.books placed) := by
  induction pairs generalizing c report with
  | nil =>
      exact ⟨[], .nil report, .nil _⟩
  | cons p rest ih =>
      cases p with
      | mk s reply =>
          have hfirst := hfits (s, reply) List.mem_cons_self
          have hrest : ∀ p ∈ rest, p.1.identity ∈ placed ∧ p.1.id ∉ c.store.launching := by
            intro p hp
            exact hfits p (List.mem_cons_of_mem _ hp)
          have hafter {e : Edit} {c' : Controller} (hbegun : e.begun? = none)
              (hbooks : c'.books placed = (c.books placed).edit env.now e) :
              ∀ p ∈ rest, p.1.identity ∈ placed ∧ p.1.id ∉ c'.store.launching := by
            intro p hp
            refine ⟨(hrest p hp).left, ?_⟩
            intro hmem
            have hedit : p.1.id ∈ ((c.books placed).edit env.now e).store.launching := hbooks ▸ hmem
            rw [Books.mem_launching_edit, hbegun] at hedit
            rcases hedit with hbad | ⟨hold, _⟩
            · cases hbad
            · exact (hrest p hp).right hold
          rw [settleAll]
          rcases settle_cases env h hfirst.left hfirst.right report reply with
            ⟨m, c', hmerged, hsettle, hedit, hbooks⟩ |
            ⟨e, r, c', hmerged, hid, hsettle, hedit, hbooks⟩ | hsettle | ⟨reason, hsettle⟩
          · rw [hsettle]
            have hsound : (c'.books placed).Sound := hbooks ▸ h.edit env.now hedit
            rcases ih hsound (hafter rfl hbooks) _ with ⟨es, hsweeps, hedited⟩
            exact ⟨_, .refreshed hmerged hsweeps, .cons hedit (hbooks ▸ hedited)⟩
          · rw [hsettle]
            have hsound : (c'.books placed).Sound := hbooks ▸ h.edit env.now hedit
            rcases ih hsound (hafter rfl hbooks) _ with ⟨es, hsweeps, hedited⟩
            exact ⟨_, .purged hmerged hid hsweeps, .cons hedit (hbooks ▸ hedited)⟩
          · rw [hsettle]
            rcases ih h hrest _ with ⟨es, hsweeps, hedited⟩
            exact ⟨es, .absent hsweeps, hedited⟩
          · rw [hsettle]
            rcases ih h hrest _ with ⟨es, hsweeps, hedited⟩
            exact ⟨es, .failed hsweeps, hedited⟩

theorem purged_settle_iff (env : Env) (hstore : c.store.Consistent) (report : Report) (s : Server)
    (reply : Reply) (id : ServerId) :
    id ∈ (c.settle env report s reply).2.purged ↔ id ∈ report.purged ∨
      id = s.id ∧ id ∈ Store.ids c.store.index ∧ (∃ e, reply.merged s = .error e) ∧
        c.store.database.refusal (.deleteServer id.text) = none := by
  cases hmerged : reply.merged s with
  | ok m =>
      simp only [settle, hmerged]
      cases c.store.replace m with
      | error e =>
          simp
      | ok found =>
          cases found <;> simp
  | error e =>
      simp only [settle, hmerged, purge]
      cases hremove : c.store.remove s.id with
      | error e' =>
          rcases (hstore.remove_eq_error_iff.mp hremove).right with ⟨reason, hrefusal, _⟩
          simp +contextual [hrefusal]
      | ok found =>
          cases found with
          | none =>
              have habsent := hstore.remove_eq_none_iff.mp hremove
              simp +contextual [habsent]
          | some found =>
              rcases hstore.remove_eq_some_iff.mp hremove with ⟨hget, hrefusal, _⟩
              have hids := Store.exists_get?_iff.mp ⟨_, hget⟩
              show id ∈ report.purged ++ [s.id] ↔ _
              rw [List.mem_append, List.mem_singleton]
              apply or_congr_right
              constructor
              · intro hid
                subst hid
                exact ⟨rfl, hids, ⟨e, rfl⟩, hrefusal⟩
              · exact And.left

theorem settle_frame (env : Env) (h : (c.books placed).Sound) {s : Server} (hplaced : s.identity ∈ placed)
    (hlanded : s.id ∉ c.store.launching) (report : Report) (reply : Reply) :
    ((c.settle env report s reply).1.books placed).Sound ∧
      (c.settle env report s reply).1.store.launching = c.store.launching ∧
      (c.settle env report s reply).1.store.database.refusal = c.store.database.refusal ∧
      ∀ id, id ≠ s.id → (id ∈ Store.ids (c.settle env report s reply).1.store.index ↔
        id ∈ Store.ids c.store.index) := by
  rcases settle_cases env h hplaced hlanded report reply with
    ⟨m, c', hmerged, hsettle, hedit, hbooks⟩ | ⟨e, r, c', _, hid, hsettle, hedit, hbooks⟩ |
    hsettle | ⟨reason, hsettle⟩
  · have hstore : c'.store = c.store.stored m := congrArg Books.store hbooks
    simp only [hsettle, hstore]
    refine ⟨hbooks ▸ h.edit env.now hedit, rfl, rfl, ?_⟩
    intro id hne
    have hsame := Server.id_of_identity (Server.identity_of_merged hmerged)
    rw [Store.ids_stored, hsame]
    exact or_iff_right hne
  · have hstore : c'.store = c.store.without r.id := congrArg Books.store hbooks
    simp only [hsettle, hstore]
    refine ⟨hbooks ▸ h.edit env.now hedit, rfl, rfl, ?_⟩
    intro id hne
    rw [Store.ids_without, hid]
    exact and_iff_left hne
  · rw [hsettle]
    exact ⟨h, rfl, rfl, fun _ _ => Iff.rfl⟩
  · rw [hsettle]
    exact ⟨h, rfl, rfl, fun _ _ => Iff.rfl⟩

theorem purged_settleAll_iff (env : Env) (h : (c.books placed).Sound) (pairs : List (Server × Reply))
    (hfits : ∀ p ∈ pairs, p.1.identity ∈ placed ∧ p.1.id ∉ c.store.launching)
    (hnodup : (pairs.map fun p => p.1.id).Nodup) (report : Report) (id : ServerId) :
    id ∈ (c.settleAll env report pairs).2.purged ↔ id ∈ report.purged ∨
      id ∈ Store.ids c.store.index ∧ (∃ p ∈ pairs, p.1.id = id ∧ ∃ e, p.2.merged p.1 = .error e) ∧
        c.store.database.refusal (.deleteServer id.text) = none := by
  induction pairs generalizing c report with
  | nil =>
      simp [settleAll]
  | cons p rest ih =>
      cases p with
      | mk s reply =>
          have hfirst := hfits (s, reply) List.mem_cons_self
          rw [List.map_cons, List.nodup_cons] at hnodup
          have hsettled := purged_settle_iff env h.store report s reply id
          rcases settle_frame env h hfirst.left hfirst.right report reply with
            ⟨hsound, hlaunching, hrefusal, hothers⟩
          rw [settleAll]
          rw [ih hsound ?_ hnodup.right, hsettled, hrefusal]
          · by_cases hid : id = s.id
            · subst hid
              have hno : ¬ ∃ p ∈ rest, p.1.id = s.id ∧ ∃ e, p.2.merged p.1 = .error e := by
                intro hp
                rcases hp with ⟨p, hp, hsame, _⟩
                exact hnodup.left (List.mem_map.mpr ⟨p, hp, hsame⟩)
              simp [hno]
            · rw [hothers id hid]
              simp [hid, Ne.symm hid]
          · intro p hp
            rw [hlaunching]
            exact hfits p (List.mem_cons_of_mem _ hp)

/-!
# All jobs
-/

theorem resumes_launching (h : (c.books placed).Sound) {l : Launch}
    (hplaced : l.provisional.identity ∈ placed) (hlaunching : l.provisional.id ∈ c.store.launching)
    (replies : List Reply) :
    ∃ es, Resumes c env (.start (.launching l)) replies es
        (c.resume env (.start (.launching l)) replies).2 ∧
      (c.books placed).Edited env.now es
        ((c.resume env (.start (.launching l)) replies).1.books placed) := by
  rw [resume, resumeStart]
  cases hmerged : (single replies).bind fun theirs => l.provisional.merge theirs env.now with
  | error e =>
      rcases rollBack_cases env h hplaced hlaunching with
        ⟨r, hidentity, hfits, hbooks⟩ | ⟨reason, hrefused, hbooks⟩
      · refine ⟨_, .failed hmerged hidentity, ?_⟩
        rw [hbooks]
        exact .single hfits
      · refine ⟨_, .failedKept hmerged hrefused, ?_⟩
        rw [hbooks]
        exact .single hlaunching
  | ok m =>
      rcases commit_cases env h hplaced hlaunching (Server.identity_of_bind hmerged) with
        ⟨c', hcommit, hfits, hbooks⟩ | ⟨reason, hrefused, hcommit⟩
      · simp only [hcommit]
        refine ⟨_, .committed hmerged, ?_⟩
        rw [hbooks]
        exact .single hfits
      · simp only [hcommit]
        exact ⟨_, .uncommitted hmerged hrefused, .nil _⟩

theorem resumes_undoing (h : (c.books placed).Sound) {u : Undo} {reason : String}
    (hplaced : u.provisional.identity ∈ placed) (hlaunching : u.provisional.id ∈ c.store.launching)
    (hfailure : u.failure = some (.refused reason)) (replies : List Reply) :
    ∃ es, Resumes c env (.start (.undoing u)) replies es
        (c.resume env (.start (.undoing u)) replies).2 ∧
      (c.books placed).Edited env.now es
        ((c.resume env (.start (.undoing u)) replies).1.books placed) := by
  rw [resume, resumeStart, hfailure]
  rcases rollBack_cases env h hplaced hlaunching with
    ⟨r, hidentity, hfits, hbooks⟩ | ⟨reason', hrefused, hbooks⟩
  · refine ⟨_, .undone hfailure hidentity, ?_⟩
    rw [hbooks]
    exact .single hfits
  · refine ⟨_, .undoneKept hfailure hrefused, ?_⟩
    rw [hbooks]
    exact .single hlaunching

theorem resumes_resume (env : Env) (h : (c.books placed).Sound) {job : Job} (hjob : job.Fits (c.books placed))
    (replies : List Reply) :
    ∃ es, Resumes c env job replies es (c.resume env job replies).2 ∧
      (c.books placed).Edited env.now es ((c.resume env job replies).1.books placed) := by
  cases job with
  | start work =>
      rcases hjob with ⟨hplaced, hlaunching, hundo⟩
      cases work with
      | launching l =>
          exact resumes_launching h hplaced hlaunching replies
      | undoing u =>
          rcases (hundo u rfl).right with ⟨reason, hfailure⟩
          exact resumes_undoing h hplaced hlaunching hfailure replies
  | stop k =>
      exact finishStop_resumes h replies hjob.right
  | attach w =>
      rcases settleAll_sweeps env h _ (hjob.pairs replies) .empty with ⟨es, hsweeps, hedited⟩
      exact ⟨es, .swept hsweeps, hedited⟩

/-!
# Overrides
-/

theorem update_cases (env : Env) (h : (c.books placed).Sound) (id : ServerId) {change : Server → Server}
    (hchange : ∀ s, (change s).identity = s.identity) :
    (∃ e, c.update env id change = (c, .error e) ∧ e.Possible) ∨
    ∃ before after c', c.update env id change = (c', .ok after) ∧ before.id = id ∧
      (Edit.override before after).Fits (c.books placed) ∧
      c'.books placed = (c.books placed).edit env.now (.override before after) := by
  have hstore : c.store.Consistent := h.store
  cases hget : c.store.get? id with
  | none =>
      exact Or.inl ⟨.serverNotFound id, by rw [update, hget], trivial⟩
  | some before =>
      have hbefore := Store.mem_of_get? hget
      have hidentity : ({ change before with updatedAt := env.now } : Server).identity =
          before.identity := hchange before
      cases hreplace : c.store.replace { change before with updatedAt := env.now } with
      | error e =>
          rcases Store.replace_eq_error_iff.mp hreplace with ⟨hids, hsave⟩
          rcases hstore.save_eq_error_iff.mp hsave with ⟨reason, _, he⟩ | ⟨_, hoccupied, _⟩
          · refine Or.inl ⟨.storage (.refused reason), ?_, trivial⟩
            simp only [update, hget, hreplace, he]
          · have hplaced := h.placed before hbefore.left
            exact absurd hoccupied (h.not_occupied_of_placed (hidentity ▸ hplaced) hids)
      | ok found =>
          cases found with
          | none =>
              refine Or.inl ⟨.serverNotFound id, ?_, trivial⟩
              simp only [update, hget, hreplace]
          | some store =>
              have hsave := (Store.replace_eq_some_iff.mp hreplace).right
              rcases hstore.save_eq_ok_iff.mp hsave with ⟨_, _, hstored⟩
              have hupdate : c.update env id change =
                  (({ c with store } : Controller).publish env
                    (.update before { change before with updatedAt := env.now } env.now),
                    .ok { change before with updatedAt := env.now }) := by
                simp only [update, hget, hreplace]
              refine Or.inr ⟨before, _, _, hupdate, hbefore.right, ⟨hbefore.left, hidentity⟩, ?_⟩
              rw [hstored]
              rfl

end Controller
end ServerFleet
