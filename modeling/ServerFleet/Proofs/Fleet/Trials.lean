import ServerFleet.Proofs.Fleet.Fixpoint

/-!
# Starts that are put to the trial

A start is made without anything beside it, but its host may answer anything and the
database may refuse any write.  It is told by a trial: what it comes to, the records that
it adds and the events that it publishes.
-/

namespace ServerFleet

namespace Controller

structure Gains (c c' : Controller) (added : List Server) (log : List FleetEvent) : Prop where
  index : c'.store.index = c.store.index ++ added
  events : c'.feed.events = c.feed.events ++ log
  groups : c'.store.database.groups = c.store.database.groups
  table : c'.store.database.hasGroups = c.store.database.hasGroups

variable {c c' c'' : Controller} {added more : List Server} {log later : List FleetEvent} {g : Group}
  {placed placed' : List Identity} {now : Time.Instant} {p r m : Server}

theorem Gains.refl (c : Controller) : c.Gains c [] [] where
  index := (List.append_nil _).symm
  events := (List.append_nil _).symm
  groups := rfl
  table := rfl

theorem Gains.trans (h : c.Gains c' added log) (h' : c'.Gains c'' more later) :
    c.Gains c'' (added ++ more) (log ++ later) where
  index := by
    rw [h'.index, h.index, List.append_assoc]
  events := by
    rw [h'.events, h.events, List.append_assoc]
  groups := h'.groups.trans h.groups
  table := h'.table.trans h.table

theorem Gains.findGroup (h : c.Gains c' added log) (name : String) :
    c'.store.database.findGroup name = c.store.database.findGroup name := by
  rw [Database.findGroup, Database.findGroup, h.groups, h.table]

theorem Gains.countInGroup (h : c.Gains c' added log) (name : String) :
    c'.store.countInGroup name =
      c.store.countInGroup name + (added.filter fun s => s.group == name).length :=
  Store.countInGroup_of_append h.index name

theorem Gains.need_eq (h : c.Gains c' added log) (hothers : ∀ s ∈ added, s.group ≠ g.name) :
    c'.need g = c.need g := by
  have hnone : (added.filter fun s => s.group == g.name) = [] := by
    rw [List.filter_eq_nil_iff]
    intro s hs hsame
    exact hothers s hs (beq_iff_eq.mp hsame)
  rw [need, need, h.countInGroup, hnone, List.length_nil, Nat.add_zero, c'.wantedIn_eq, h.index,
    List.filter_append, hnone, List.append_nil, ← c.wantedIn_eq]

/-!
# Edits of a start
-/

theorem Gains.of_books (h : c.Gains c' added log) (hbooks : c''.books placed' = c'.books placed) :
    c.Gains c'' added log := by
  have hstore : c''.store = c'.store := congrArg Books.store hbooks
  have hfeed : c''.feed = c'.feed := congrArg Books.feed hbooks
  constructor
  case index =>
    rw [hstore, h.index]
  case events =>
    rw [hfeed, h.events]
  case groups =>
    rw [hstore, h.groups]
  case table =>
    rw [hstore, h.table]

theorem Gains.edit {e : Edit} (h : c.Gains c' added log)
    (hbooks : c''.books placed' = (c'.books placed).edit now e)
    (hindex : (e.store c'.store).index = c.store.index ++ more) :
    c.Gains c'' more (log ++ (e.event? now).toList) := by
  have hstore : c''.store = e.store c'.store := congrArg Books.store hbooks
  have hfeed : c''.feed = (e.event? now).elim c'.feed fun event =>
    c'.feed.publish eventTopic event now := congrArg Books.feed hbooks
  have hdatabase : (e.store c'.store).database.groups = c'.store.database.groups ∧
      (e.store c'.store).database.hasGroups = c'.store.database.hasGroups := by
    cases e <;> exact ⟨rfl, rfl⟩
  constructor
  case index =>
    rw [hstore, hindex]
  case events =>
    rw [hfeed]
    cases e.event? now with
    | none =>
        rw [Option.toList_none, List.append_nil]
        exact h.events
    | some event =>
        rw [Option.toList_some, ← List.append_assoc, ← h.events]
        exact Feed.events_publish c'.feed eventTopic event now
  case groups =>
    rw [hstore, hdatabase.left, h.groups]
  case table =>
    rw [hstore, hdatabase.right, h.table]

theorem Gains.place (h : c.Gains c' [] []) (hnew : p.id ∉ Store.ids c.store.index)
    (hbooks : c''.books placed' = (c'.books placed).edit now (.place p)) : c.Gains c'' [p] [] := by
  have hindex : c'.store.index = c.store.index := h.index.trans (List.append_nil _)
  refine h.edit hbooks ?_
  rw [← hindex] at hnew ⊢
  exact Store.put_of_not_mem hnew

theorem Gains.commit {cause : Cause} (h : c.Gains c' [p] []) (hnew : p.id ∉ Store.ids c.store.index)
    (hid : m.id = p.id) (hbooks : c''.books placed' = (c'.books placed).edit now (.commit m cause)) :
    c.Gains c'' [m] [.start m cause now] := by
  refine h.edit hbooks ?_
  rw [← index_committed hnew hid, Store.put_of_not_mem hnew, ← h.index]
  rfl

theorem Gains.withdraw (h : c.Gains c' [p] []) (hnew : p.id ∉ Store.ids c.store.index) (hid : r.id = p.id)
    (hbooks : c''.books placed' = (c'.books placed).edit now (.withdraw r)) : c.Gains c'' [] [] := by
  have hothers : ∀ s ∈ c.store.index, decide (s.id ≠ r.id) = true := by
    intro s hs
    rw [decide_eq_true_iff, hid]
    exact fun hsame => hnew (hsame ▸ Store.mem_ids hs)
  refine h.edit hbooks ?_
  show c'.store.index.filter (fun s => decide (s.id ≠ r.id)) = _
  rw [h.index, List.filter_append, List.filter_eq_self.mpr hothers, List.filter_singleton, hid]
  simp

theorem Gains.land {id : ServerId} (h : c.Gains c' [p] [])
    (hbooks : c''.books placed' = (c'.books placed).edit now (.land id)) : c.Gains c'' [p] [] :=
  h.edit hbooks h.index

end Controller

namespace Fleet

structure Moment where
  refusal : Statement → Option String
  env : Env

/-- What a start of a pass meets: as it begins, with the answer to its launch, and with the answer to the
termination of what it cannot commit. -/
structure Attempt where
  begun : Moment
  launched : Moment
  terminated : Moment
  answer : AgentCall → Reply

def Attempt.id (a : Attempt) : ServerId :=
  a.begun.env.serverId

/-- The moment at which a start takes its record back if it fails: with the answer to the launch, unless that
has confirmed the launch. -/
def Attempt.last (a : Attempt) (l : Launch) : Moment :=
  match (a.answer (.launch l.host l.group l.provisional)).answer.bind fun theirs =>
      l.provisional.merge theirs a.launched.env.now with
  | .ok _ => a.terminated
  | .error _ => a.launched

def under (w : Fleet) (refusal : Statement → Option String) : Fleet :=
  w.weather w.controller.store.database.groups w.controller.store.database.hasGroups refusal

def repliesTo (w : Fleet) (t : Nat) (answer : AgentCall → Reply) : List Reply :=
  match w.tasks t with
  | some ⟨_, .asking job⟩ => job.calls.map answer
  | _ => []

def goAt (answer : AgentCall → Reply) (t : Nat) (w : Fleet) (m : Moment) : Fleet :=
  (w.under m.refusal).go t m.env (w.repliesTo t answer)

structure Trial where
  group : Group
  attempt : Attempt
  result : ServerResult
  added : List Server
  log : List FleetEvent

/-- What a start can come to.  If it fails it leaves no record, unless the database has refused to delete it
when it was taken back. -/
inductive Trial.Fair : Trial → Prop where
  | committed {g : Group} {a : Attempt} {m : Server} (hid : m.id = a.id) (hgroup : m.group = g.name) :
      Fair ⟨g, a, .ok m, [m], [.start m .scaleUp a.launched.env.now]⟩
  | failed {g : Group} {a : Attempt} {e : ControlError} : Fair ⟨g, a, .error e, [], []⟩
  | kept {g : Group} {a : Attempt} {e : ControlError} {l : Launch} {reason : String}
      (hid : l.provisional.id = a.id) (hgroup : l.provisional.group = g.name)
      (hrefused : (a.last l).refusal (.deleteServer l.provisional.id.text) = some reason) :
      Fair ⟨g, a, .error e, [l.provisional], []⟩

structure Trial.Commits (r : Trial) (s : Server) : Prop where
  added : r.added = [s]
  log : r.log = [.start s .scaleUp r.attempt.launched.env.now]
  id : s.id = r.attempt.id
  group : s.group = r.group.name

/-- A fleet is another one but for what a task with a new identifier has done up to its stage. -/
structure Stands (w w' : Fleet) (t : Nat) (order : Order) (new : ServerId) (stage : Stage)
    (added : List Server) (log : List FleetEvent) : Prop where
  sound : w'.Sound
  gains : w.controller.Gains w'.controller added log
  task : w'.tasks t = some ⟨order, stage⟩
  others : ∀ u, u ≠ t → w'.tasks u = w.tasks u
  next : w'.next = w.next
  passes : w'.passes = w.passes
  placed : ∀ id ∈ w'.placed.map Identity.id, id ∈ w.placed.map Identity.id ∨ id = new

/-- A start has failed.  Its record is gone, or the database has refused to delete it at a moment. -/
def TakesBack (w w' : Fleet) (t : Nat) (order : Order) (new : ServerId) (s : Server) (m : Moment) : Prop :=
  ∃ e, Stands w w' t order new (.ended (.server (.error e))) [] [] ∨
    (∃ reason, m.refusal (.deleteServer s.id.text) = some reason) ∧
      Stands w w' t order new (.ended (.server (.error e))) [s] []

variable {w w' : Fleet} {t : Nat} {order : Order} {new : ServerId} {stage : Stage} {g : Group}
  {added : List Server} {log : List FleetEvent} {a : Attempt} {m : Moment} {answer : AgentCall → Reply}

/-!
# The steps of a start
-/

theorem Trial.Fair.of_ok {r : Trial} {s : Server} (h : r.Fair) (hok : r.result = .ok s) : r.Commits s := by
  cases h with
  | committed hid hgroup =>
      cases hok
      exact ⟨rfl, rfl, hid, hgroup⟩
  | failed | kept _ _ _ =>
      cases hok

theorem Trial.Fair.group_of_added {r : Trial} (h : r.Fair) {s : Server} (hs : s ∈ r.added) :
    s.group = r.group.name := by
  cases h with
  | committed _ hgroup =>
      rw [List.mem_singleton.mp hs]
      exact hgroup
  | failed =>
      cases hs
  | kept _ hgroup _ =>
      rw [List.mem_singleton.mp hs]
      exact hgroup

theorem Stands.under (h : Stands w w' t order new stage added log) (refusal : Statement → Option String) :
    Stands w (w'.under refusal) t order new stage added log where
  sound := h.sound.weather _ _ refusal
  gains := ⟨h.gains.index, h.gains.events, h.gains.groups, h.gains.table⟩
  task := h.task
  others := h.others
  next := h.next
  passes := h.passes
  placed := h.placed

theorem Stands.advance (h : Stands w w' t order new stage added log)
    {step : Controller × Progress Job Outcome} {more : List Server} {later : List FleetEvent}
    (hsound : (w'.advance t order step).Sound) (hgains : w.controller.Gains step.1 more later)
    (hplaced : ∀ a ∈ step.2.placed, a.id = new) :
    Stands w (w'.advance t order step) t order new step.2.stage more later where
  sound := hsound
  gains := hgains
  task := Function.update_self _ _ _
  others := by
    intro u hu
    rw [tasks_advance, Function.update_of_ne hu]
    exact h.others u hu
  next := h.next
  passes := h.passes
  placed := by
    intro id hid
    rw [Fleet.advance, List.map_append, List.mem_append] at hid
    rcases hid with hid | hid
    · rcases List.mem_map.mp hid with ⟨identity, hidentity, rfl⟩
      exact Or.inr (hplaced identity hidentity)
    · exact h.placed id hid

theorem Stands.over {outcome : Outcome} (h : Stands w w' t order new (.ended outcome) added log)
    (answer : AgentCall → Reply) (m : Moment) :
    Stands w (goAt answer t w' m) t order new (.ended outcome) added log := by
  have hunder := h.under m.refusal
  rw [goAt, go, hunder.task]
  exact hunder

theorem Stands.begin {cause : Cause}
    (h : Stands w w' t (.start g.name cause) m.env.serverId .ordered [] [])
    (hfresh : m.env.serverId ∉ w'.placed.map Identity.id)
    (hnew : m.env.serverId ∉ Store.ids w.controller.store.index)
    (hgroup : w.controller.store.database.findGroup g.name = .ok (some g)) (answer : AgentCall → Reply) :
    (∃ e, Stands w (goAt answer t w' m) t (.start g.name cause) m.env.serverId
        (.ended (.server (.error e))) [] []) ∨
      ∃ l : Launch, l.cause = cause ∧ l.provisional.id = m.env.serverId ∧ l.provisional.group = g.name ∧
        Stands w (goAt answer t w' m) t (.start g.name cause) m.env.serverId
          (.asking (.start (.launching l))) [l.provisional] [] := by
  have hunder := h.under m.refusal
  have hgo := go_of_ordered hunder.task hfresh (w'.repliesTo t answer)
  have hsound := hunder.sound.go t m.env (w'.repliesTo t answer)
  rw [goAt]
  rw [hgo] at hsound ⊢
  rcases Controller.beginStart_cases hunder.sound.books hfresh g.name cause with
    ⟨e, hbegin, _⟩ | ⟨found, host, number, c', hfound, _, _, hbegin, _, hbooks⟩
  · have hstep : (w'.under m.refusal).controller.begin m.env (.start g.name cause) =
        ((w'.under m.refusal).controller, .done (.server (.error e))) := by
      simp only [Controller.begin, hbegin, Progress.lift]
    rw [hstep] at hsound ⊢
    exact Or.inl ⟨e, hunder.advance hsound hunder.gains fun a ha => absurd ha List.not_mem_nil⟩
  · rw [hunder.gains.findGroup, hgroup] at hfound
    cases hfound
    have hstep : (w'.under m.refusal).controller.begin m.env (.start g.name cause) =
        (c', .waiting (.start (.launching ⟨g, host,
          (w'.under m.refusal).controller.provisional m.env m.env.serverId g host number, cause⟩))) := by
      simp only [Controller.begin, hbegin, Progress.lift]
    rw [hstep] at hsound ⊢
    refine Or.inr ⟨_, rfl, rfl, rfl, hunder.advance hsound (hunder.gains.place hnew hbooks) ?_⟩
    intro a ha
    rw [List.mem_singleton.mp ha]
    rfl

theorem Stands.resume {work : StartWork}
    (h : Stands w w' t order new (.asking (.start work)) added log) (answer : AgentCall → Reply)
    (m : Moment) :
    ∃ es c' progress,
      (w'.under m.refusal).controller.Resumes m.env (.start work) [answer work.call] es progress ∧
      (w'.under m.refusal).books.Edited m.env.now es (c'.books w'.placed) ∧
      ∀ more later, w.controller.Gains c' more later →
        Stands w (goAt answer t w' m) t order new progress.stage more later := by
  have hunder := h.under m.refusal
  have hfits : (Job.start work).Fits (w'.under m.refusal).books := hunder.sound.fits t _ hunder.task
  have hreplies : w'.repliesTo t answer = [answer work.call] := by
    rw [repliesTo, h.task]
    rfl
  rcases Controller.resumes_resume m.env hunder.sound.books hfits [answer work.call] with
    ⟨es, hresumes, hedited⟩
  have hgo : goAt answer t w' m = (w'.under m.refusal).advance t order
      ((w'.under m.refusal).controller.resume m.env (.start work) [answer work.call]) := by
    rw [goAt, hreplies]
    exact go_of_asking hunder.task rfl m.env
  refine ⟨es, _, _, hresumes, hedited, ?_⟩
  intro more later hgains
  rw [hgo]
  refine hunder.advance (hgo ▸ hunder.sound.go t m.env _) hgains ?_
  intro a ha
  rw [resumes_placed hresumes] at ha
  cases ha

theorem Stands.launched {l : Launch}
    (h : Stands w w' t order new (.asking (.start (.launching l))) [l.provisional] [])
    (hnew : l.provisional.id ∉ Store.ids w.controller.store.index) (answer : AgentCall → Reply)
    (m : Moment) :
    let merged := (answer (.launch l.host l.group l.provisional)).answer.bind fun theirs =>
      l.provisional.merge theirs m.env.now
    (∃ s, s.identity = l.provisional.identity ∧ Stands w (goAt answer t w' m) t order new
        (.ended (.server (.ok s))) [s] [.start s l.cause m.env.now]) ∨
      (∃ e, merged = .error e) ∧ TakesBack w (goAt answer t w' m) t order new l.provisional m ∨
      (∃ s, merged = .ok s) ∧ ∃ u : Undo, u.provisional = l.provisional ∧
        Stands w (goAt answer t w' m) t order new (.asking (.start (.undoing u))) [l.provisional] [] := by
  intro merged
  have hgains := (h.under m.refusal).gains
  rcases h.resume answer m with ⟨es, c', progress, hresumes, hedited, hstands⟩
  cases hresumes with
  | @committed _ s _ hmerged =>
      have hidentity := Server.identity_of_bind hmerged
      exact Or.inl ⟨s, hidentity, hstands _ _ (hgains.commit hnew (Server.id_of_identity hidentity)
        (Books.edited_single_iff.mp hedited).right)⟩
  | @failed _ r e _ hmerged hidentity =>
      refine Or.inr (Or.inl ⟨⟨e, hmerged⟩, _, Or.inl (hstands _ _ ?_)⟩)
      exact hgains.withdraw hnew (Server.id_of_identity hidentity)
        (Books.edited_single_iff.mp hedited).right
  | @failedKept _ e _ reason hmerged hrefused =>
      refine Or.inr (Or.inl ⟨⟨e, hmerged⟩, _, Or.inr ⟨⟨reason, hrefused⟩, hstands _ _ ?_⟩⟩)
      exact hgains.land (Books.edited_single_iff.mp hedited).right
  | @uncommitted _ s _ reason hmerged _ =>
      refine Or.inr (Or.inr ⟨⟨s, hmerged⟩, _, rfl, hstands _ _ ?_⟩)
      exact hgains.of_books (Books.edited_nil_iff.mp hedited)

theorem Stands.terminated {u : Undo}
    (h : Stands w w' t order new (.asking (.start (.undoing u))) [u.provisional] [])
    (hnew : u.provisional.id ∉ Store.ids w.controller.store.index) (answer : AgentCall → Reply)
    (m : Moment) : TakesBack w (goAt answer t w' m) t order new u.provisional m := by
  have hgains := (h.under m.refusal).gains
  rcases h.resume answer m with ⟨es, c', progress, hresumes, hedited, hstands⟩
  cases hresumes with
  | undone _ hidentity =>
      refine ⟨_, Or.inl (hstands _ _ ?_)⟩
      exact hgains.withdraw hnew (Server.id_of_identity hidentity)
        (Books.edited_single_iff.mp hedited).right
  | @undoneKept _ _ _ reason _ hrefused =>
      refine ⟨_, Or.inr ⟨⟨reason, hrefused⟩, hstands _ _ ?_⟩⟩
      exact hgains.land (Books.edited_single_iff.mp hedited).right

theorem TakesBack.over {s : Server} (h : TakesBack w w' t order new s m) (answer : AgentCall → Reply)
    (later : Moment) : TakesBack w (goAt answer t w' later) t order new s m := by
  rcases h with ⟨e, hgone | ⟨hrefused, hkept⟩⟩
  · exact ⟨e, Or.inl (hgone.over answer later)⟩
  · exact ⟨e, Or.inr ⟨hrefused, hkept.over answer later⟩⟩

theorem Stands.trial (h : Stands w w t (.start g.name .scaleUp) a.id .ordered [] [])
    (hfresh : a.id ∉ w.placed.map Identity.id)
    (hgroup : w.controller.store.database.findGroup g.name = .ok (some g)) :
    ∃ r : Trial, r.group = g ∧ r.attempt = a ∧ r.Fair ∧
      Stands w ([a.begun, a.launched, a.terminated].foldl (goAt a.answer t) w) t
        (.start g.name .scaleUp) a.id (.ended (.server r.result)) r.added r.log := by
  have hnew : a.id ∉ Store.ids w.controller.store.index := fun hmem =>
    hfresh (h.sound.books.placed_of_ids hmem)
  rw [List.foldl_cons, List.foldl_cons, List.foldl_cons, List.foldl_nil]
  rcases h.begin hfresh hnew hgroup a.answer with ⟨e, hended⟩ | ⟨l, hcause, hid, hname, hlaunching⟩
  · exact ⟨⟨g, a, .error e, [], []⟩, rfl, rfl, .failed,
      (hended.over a.answer a.launched).over a.answer a.terminated⟩
  · -- If the start fails, its record is taken back at the last moment that the attempt tells.
    have hfailed {w' : Fleet} (hback : TakesBack w w' t (.start g.name .scaleUp) a.id l.provisional
        (a.last l)) :
        ∃ r : Trial, r.group = g ∧ r.attempt = a ∧ r.Fair ∧
          Stands w w' t (.start g.name .scaleUp) a.id (.ended (.server r.result)) r.added r.log := by
      rcases hback with ⟨e, hgone | ⟨⟨reason, hrefused⟩, hkept⟩⟩
      · exact ⟨⟨g, a, .error e, [], []⟩, rfl, rfl, .failed, hgone⟩
      · exact ⟨⟨g, a, .error e, [l.provisional], []⟩, rfl, rfl, .kept hid hname hrefused, hkept⟩
    have hnew : l.provisional.id ∉ Store.ids w.controller.store.index := hid ▸ hnew
    rcases hlaunching.launched hnew a.answer a.launched with
      ⟨s, hidentity, hended⟩ | ⟨⟨e, hmerged⟩, hback⟩ | ⟨⟨s, hmerged⟩, u, hu, hasking⟩
    · have hgroup : s.group = g.name := (congrArg Identity.group hidentity).trans hname
      have hsid : s.id = a.id := (Server.id_of_identity hidentity).trans hid
      rw [hcause] at hended
      exact ⟨⟨g, a, .ok s, [s], [.start s .scaleUp a.launched.env.now]⟩, rfl, rfl,
        .committed hsid hgroup, hended.over a.answer a.terminated⟩
    · have hlast : a.last l = a.launched := by
        rw [Attempt.last, hmerged]
      exact hfailed (hlast ▸ hback.over a.answer a.terminated)
    · have hlast : a.last l = a.terminated := by
        rw [Attempt.last, hmerged]
      rw [← hu] at hasking hnew
      have hback := hasking.terminated hnew a.answer a.terminated
      rw [hu] at hback
      exact hfailed (hlast ▸ hback)

end Fleet
end ServerFleet
