import Mathlib.Data.List.Induction
import ServerFleet.Proofs.Fleet.Events
import ServerFleet.Proofs.Fleet.Invariant

/-!
# What a move does

A move of a fleet in order goes in one of a few ways.  Each of them is told by the
edits that it makes to the books, and by what it leaves.
-/

namespace ServerFleet

instance : Nonempty Time.Instant :=
  ⟨⟨⟨1970, 1, 1, by decide, by decide, by decide⟩, 0, 0, by decide, by decide⟩⟩

namespace Fleet

def Move.change? : Move → Option (Env × ServerId × (Server → Server))
  | .setState env id state => some (env, id, fun s => { s with state })
  | .setProperty env id key value =>
      some (env, id, fun s => { s with properties := s.properties.insert key value })
  | _ => none

/-- How a move can go: when, with which edits, and to which fleet. -/
inductive Goes (w : Fleet) : Move → Time.Instant → List Edit → Fleet → Prop where
  /-- Nothing is edited; work may have been ordered. -/
  | still {move : Move} {now : Time.Instant} {w' : Fleet} (hcontroller : w'.controller = w.controller)
      (hplaced : w'.placed = w.placed)
      (htasks : ∀ t, w'.tasks t = w.tasks t ∨
        w.tasks t = none ∧ ∃ order, w'.tasks t = some ⟨order, .ordered⟩) :
      Goes w move now [] w'
  | weather {groups : List GroupRow} {hasGroups : Bool} {refusal : Statement → Option String}
      {now : Time.Instant} :
      Goes w (.weather groups hasGroups refusal) now [] (w.weather groups hasGroups refusal)
  | restart {settings : ControlSettings} {now : Time.Instant} :
      Goes w (.restart settings) now []
        { w with
          controller := Controller.recovered settings w.controller.store
          tasks := fun _ => none
          passes := fun _ => none }
  | begin {t : Nat} {order : Order} {env : Env} {replies : List Reply} {es : List Edit}
      {c' : Controller} {p : Progress Job Outcome} (hold : w.tasks t = some ⟨order, .ordered⟩)
      (hfresh : env.serverId ∉ w.placed.map Identity.id) (hbegin : w.controller.begin env order = (c', p))
      (hbegins : w.controller.Begins env order es p)
      (hedited : w.books.Edited env.now es (w.advance t order (c', p)).books) :
      Goes w (.go t env replies) env.now es (w.advance t order (c', p))
  | resume {t : Nat} {order : Order} {job : Job} {env : Env} {replies : List Reply} {es : List Edit}
      {c' : Controller} {p : Progress Job Outcome} (hold : w.tasks t = some ⟨order, .asking job⟩)
      (hreplies : replies.length = job.calls.length)
      (hresume : w.controller.resume env job replies = (c', p))
      (hresumes : w.controller.Resumes env job replies es p)
      (hedited : w.books.Edited env.now es (w.advance t order (c', p)).books) :
      Goes w (.go t env replies) env.now es (w.advance t order (c', p))
  | override {move : Move} {env : Env} {id : ServerId} {change : Server → Server} {c' : Controller}
      {before after : Server} (hmove : move.change? = some (env, id, change))
      (hupdate : w.controller.update env id change = (c', .ok after))
      (hedited : w.books.Edited env.now [.override before after]
        ({ w with controller := c' } : Fleet).books) :
      Goes w move env.now [.override before after] { w with controller := c' }

inductive Makes (w w' : Fleet) : Move → Time.Instant → Edit → Prop where
  | placed {t : Nat} {order : Order} {env : Env} {replies : List Reply} {s : Server}
      (hold : w.tasks t = some ⟨order, .ordered⟩) (hfresh : s.id ∉ w.placed.map Identity.id) :
      Makes w w' (.go t env replies) env.now (.place s)
  | committed {t : Nat} {order : Order} {env : Env} {replies : List Reply} {l : Launch} {m : Server}
      (hold : w.tasks t = some ⟨order, .asking (.start (.launching l))⟩)
      (hmerged : ((Controller.single replies).bind fun theirs =>
        l.provisional.merge theirs env.now) = .ok m)
      (hended : w'.tasks t = some ⟨order, .ended (.server (.ok m))⟩) :
      Makes w w' (.go t env replies) env.now (.commit m l.cause)
  | withdrawn {t : Nat} {order : Order} {env : Env} {replies : List Reply} {work : StartWork}
      {r : Server} (hold : w.tasks t = some ⟨order, .asking (.start work)⟩)
      (hidentity : r.identity = work.provisional.identity) :
      Makes w w' (.go t env replies) env.now (.withdraw r)
  | landed {t : Nat} {order : Order} {env : Env} {replies : List Reply} {work : StartWork}
      {reason : String} (hold : w.tasks t = some ⟨order, .asking (.start work)⟩)
      (hrefused : w.controller.store.database.refusal
        (.deleteServer work.provisional.id.text) = some reason) :
      Makes w w' (.go t env replies) env.now (.land work.provisional.id)
  | stopped {t : Nat} {order : Order} {env : Env} {replies : List Reply} {k : Stopping} {r : Server}
      (hold : w.tasks t = some ⟨order, .asking (.stop k)⟩) :
      Makes w w' (.go t env replies) env.now (.remove r k.cause)
  | purged {t : Nat} {order : Order} {env : Env} {replies : List Reply} {sweep : Sweep} {r : Server}
      (hold : w.tasks t = some ⟨order, .asking (.attach sweep)⟩) :
      Makes w w' (.go t env replies) env.now (.remove r .hostLost)
  | refreshed {t : Nat} {env : Env} {replies : List Reply} {sweep : Sweep} {report : Report}
      {s m : Server} {reply : Reply}
      (hold : w.tasks t = some ⟨.attach sweep.host, .asking (.attach sweep)⟩)
      (hpair : (s, reply) ∈ sweep.owned.zip replies) (hmerged : reply.merged s = .ok m)
      (hended : w'.tasks t = some ⟨.attach sweep.host, .ended (.attached sweep.host report)⟩)
      (hreport : m.id ∈ report.reattached) :
      Makes w w' (.go t env replies) env.now (.refresh m)
  | overridden {move : Move} {env : Env} {id : ServerId} {change : Server → Server} {c' : Controller}
      {before after : Server} (hmove : move.change? = some (env, id, change))
      (hupdate : w.controller.update env id change = (c', .ok after)) :
      Makes w w' move env.now (.override before after)

variable {w w' : Fleet} {move : Move} {now : Time.Instant} {es : List Edit}

/-!
# All moves
-/

theorem Goes.of_eq (h : w' = w) (move : Move) : w.Goes move now [] w' := by
  subst h
  exact .still rfl rfl fun _ => Or.inl rfl

theorem Sound.tasks_spawn (h : w.Sound) (ordered : Order) (t : Nat) :
    (w.spawn ordered).tasks t = w.tasks t ∨
      w.tasks t = none ∧ ∃ order, (w.spawn ordered).tasks t = some ⟨order, .ordered⟩ := by
  rw [Fleet.tasks_spawn]
  by_cases ht : t = w.next
  · rw [ht, Function.update_self]
    exact Or.inr ⟨h.bound w.next (Nat.le_refl _), ordered, rfl⟩
  · rw [Function.update_of_ne ht]
    exact Or.inl rfl

theorem Sound.goes_advancePass (h : w.Sound) (move : Move) (p : Nat)
    (progress : Progress Pass PassStats) : w.Goes move now [] (w.advancePass p progress) := by
  cases progress with
  | done stats =>
      exact .still rfl rfl fun _ => Or.inl rfl
  | waiting pass =>
      exact .still rfl rfl (h.tasks_spawn pass.order)

theorem Sound.goes_go (h : w.Sound) (t : Nat) (env : Env) (replies : List Reply) :
    ∃ es, w.Goes (.go t env replies) env.now es (w.go t env replies) := by
  rw [Fleet.go]
  split
  next =>
    exact ⟨[], .of_eq rfl _⟩
  next =>
    exact ⟨[], .of_eq rfl _⟩
  next order hold =>
    split
    next =>
      exact ⟨[], .of_eq rfl _⟩
    next hfresh =>
      rcases Controller.begins_begin h.books hfresh order with ⟨es, hbegins, hedited⟩
      exact ⟨es, .begin hold hfresh rfl hbegins hedited⟩
  next order job hold =>
    split
    next hreplies =>
      rcases Controller.resumes_resume env h.books (h.fits t _ hold) replies with
        ⟨es, hresumes, hedited⟩
      rw [← books_resume t order hresumes] at hedited
      exact ⟨es, .resume hold hreplies rfl hresumes hedited⟩
    next =>
      exact ⟨[], .of_eq rfl _⟩

theorem Sound.goes_goPass (h : w.Sound) (p : Nat) : w.Goes (.goPass p) now [] (w.goPass p) := by
  rw [Fleet.goPass]
  split
  next =>
    exact .of_eq rfl _
  next =>
    exact .of_eq rfl _
  next =>
    split
    next =>
      exact .still rfl rfl fun _ => Or.inl rfl
    next =>
      exact h.goes_advancePass _ p _
  next =>
    split
    next =>
      exact h.goes_advancePass _ p _
    next =>
      exact .of_eq rfl _

theorem Sound.goes_update (h : w.Sound) {env : Env} {id : ServerId} {change : Server → Server}
    (hmove : move.change? = some (env, id, change))
    (hchange : ∀ s, (change s).identity = s.identity) :
    ∃ es, w.Goes move env.now es { w with controller := (w.controller.update env id change).1 } := by
  rcases Controller.update_cases env h.books id hchange with
    ⟨e, hupdate, _⟩ | ⟨before, after, c', hupdate, _, hfits, hbooks⟩
  · refine ⟨[], .of_eq ?_ _⟩
    rw [hupdate]
  · refine ⟨[.override before after], ?_⟩
    rw [hupdate]
    refine .override hmove hupdate (Books.edited_single_iff.mpr ⟨hfits, hbooks⟩)

theorem Sound.goes (h : w.Sound) (move : Move) : ∃ now es, w.Goes move now es (w.step move) := by
  have ⟨now⟩ : Nonempty Time.Instant := inferInstance
  cases move with
  | order order =>
      exact ⟨now, [], .still rfl rfl (h.tasks_spawn order)⟩
  | stopNumber group number cause =>
      refine ⟨now, [], ?_⟩
      rw [Fleet.step]
      split
      next =>
        exact .of_eq rfl _
      next s _ =>
        exact .still rfl rfl (h.tasks_spawn _)
  | orderPass =>
      exact ⟨now, [], .still rfl rfl fun _ => Or.inl rfl⟩
  | go t env replies =>
      exact ⟨env.now, h.goes_go t env replies⟩
  | goPass p =>
      exact ⟨now, [], h.goes_goPass p⟩
  | setState env id state =>
      exact ⟨env.now, h.goes_update rfl fun _ => rfl⟩
  | setProperty env id key value =>
      exact ⟨env.now, h.goes_update rfl fun _ => rfl⟩
  | weather groups hasGroups refusal =>
      exact ⟨now, [], .weather⟩
  | restart settings =>
      refine ⟨now, [], ?_⟩
      rw [Fleet.step, h.restart_eq]
      exact .restart

/-!
# The books after a move
-/

theorem Goes.edited_or_restart (h : w.Goes move now es w') :
    (∃ b database, w.books.Edited now es b ∧ w'.books = b.onDatabase database) ∨
      ∃ settings, move = .restart settings ∧ es = [] ∧ w'.placed = w.placed ∧
        w'.controller = Controller.recovered settings w.controller.store := by
  cases h with
  | still hcontroller hplaced _ =>
      refine Or.inl ⟨w.books, w.books.store.database, .nil _, ?_⟩
      rw [Fleet.books, hcontroller, hplaced]
      rfl
  | weather =>
      exact Or.inl ⟨w.books, _, .nil _, rfl⟩
  | restart =>
      exact Or.inr ⟨_, rfl, rfl, rfl, rfl⟩
  | begin _ _ _ _ hedited =>
      exact Or.inl ⟨_, _, hedited, rfl⟩
  | resume _ _ _ _ hedited =>
      exact Or.inl ⟨_, _, hedited, rfl⟩
  | override _ _ hedited =>
      exact Or.inl ⟨_, _, hedited, rfl⟩

theorem Goes.edited (h : w.Goes move now es w') (hlasting : ∀ settings, move ≠ .restart settings) :
    ∃ b database, w.books.Edited now es b ∧ w'.books = b.onDatabase database := by
  rcases h.edited_or_restart with hedited | ⟨settings, hmove, _⟩
  · exact hedited
  · exact absurd hmove (hlasting settings)

theorem Goes.nodup (hgoes : w.Goes move now es w') (h : w.Sound) : (es.map Edit.id).Nodup := by
  cases hgoes with
  | still _ _ _ | weather | restart =>
      exact List.nodup_nil
  | override _ _ _ =>
      exact List.nodup_singleton _
  | begin _ _ _ hbegins _ =>
      cases hbegins with
      | placed _ _ _ =>
          exact List.nodup_singleton _
      | startRefused _ | stopRefused _ | stopping _ _ _ | attached | sweeping =>
          exact List.nodup_nil
  | resume hold _ _ hresumes _ =>
      cases hresumes with
      | swept hsweeps =>
          exact ((h.fits _ _ hold).nodup_pairs _).sublist hsweeps.sublist
      | committed _ | failed _ _ | failedKept _ _ | undone _ _ | undoneKept _ _ | stopped _ _ =>
          exact List.nodup_singleton _
      | uncommitted _ _ | stopFailed _ =>
          exact List.nodup_nil

theorem Goes.alike (hgoes : w.Goes move now es w') (h : w.Sound)
    (hlasting : ∀ settings, move ≠ .restart settings) {id : ServerId} (hothers : ∀ e ∈ es, e.id ≠ id) :
    w.books.Alike w'.books id := by
  rcases hgoes.edited hlasting with ⟨b, database, hedited, hbooks⟩
  rw [hbooks]
  exact (hedited.alike h.books hothers).onDatabase database

theorem Goes.get?_eq (hgoes : w.Goes move now es w') (h : w.Sound) {id : ServerId}
    (hothers : ∀ e ∈ es, e.id ≠ id) : w'.controller.store.get? id = w.controller.store.get? id := by
  rcases hgoes.edited_or_restart with
    ⟨b, database, hedited, hbooks⟩ | ⟨settings, _, _, _, hcontroller⟩
  · have halike := (hedited.alike h.books hothers).onDatabase database
    rw [← hbooks] at halike
    exact halike.record
  · rw [hcontroller]
    exact Controller.get?_recovered h.books settings id

/-- An edit finds its server as it was before the move and leaves it as it is after the move. -/
theorem Goes.isolate (hgoes : w.Goes move now es w') (h : w.Sound) {e : Edit} (he : e ∈ es) :
    ∃ found, Books.Sound found ∧ e.Fits found ∧ w.books.Alike found e.id ∧
      (found.edit now e).Alike w'.books e.id := by
  rcases hgoes.edited_or_restart with ⟨b, database, hedited, hbooks⟩ | ⟨_, _, hes, _, _⟩
  · rcases hedited.isolate h.books (hgoes.nodup h) he with ⟨found, hfound, hfits, hbefore, hafter⟩
    rw [hbooks]
    exact ⟨found, hfound, hfits, hbefore, hafter.onDatabase database⟩
  · rw [hes] at he
    cases he

theorem Goes.get?_of_mem (hgoes : w.Goes move now es w') (h : w.Sound) {e : Edit} (he : e ∈ es) :
    w'.controller.store.get? e.id = e.left? (w.controller.store.get? e.id) := by
  rcases hgoes.isolate h he with ⟨found, hfound, hfits, hbefore, hafter⟩
  have hfoundrecord : found.store.get? e.id = w.controller.store.get? e.id := hbefore.record
  rw [← hfoundrecord]
  exact hafter.record.trans (hfound.get?_edit hfits now)

/-!
# Who makes an edit
-/

theorem begins_only_place {c : Controller} {env : Env} {order : Order} {es : List Edit}
    {p : Progress Job Outcome} (h : c.Begins env order es p) {e : Edit} (he : e ∈ es) :
    ∃ s, e = .place s ∧ s.id = env.serverId := by
  cases h with
  | placed _ _ _ =>
      exact ⟨_, List.mem_singleton.mp he, rfl⟩
  | startRefused _ | stopRefused _ | stopping _ _ _ | attached | sweeping =>
      cases he

theorem makes_of_resumes {t : Nat} {order : Order} {job : Job} {env : Env} {replies : List Reply}
    {p : Progress Job Outcome} (h : w.Sound) (hold : w.tasks t = some ⟨order, .asking job⟩)
    (hresumes : w.controller.Resumes env job replies es p)
    (hmine : w'.tasks t = some ⟨order, p.stage⟩) {e : Edit} (he : e ∈ es) :
    w.Makes w' (.go t env replies) env.now e := by
  cases hresumes with
  | committed hmerged =>
      cases List.mem_singleton.mp he
      exact .committed hold hmerged hmine
  | failed _ hidentity | undone _ hidentity =>
      cases List.mem_singleton.mp he
      exact .withdrawn hold hidentity
  | failedKept _ hrefused | undoneKept _ hrefused =>
      cases List.mem_singleton.mp he
      exact .landed hold hrefused
  | uncommitted _ _ | stopFailed _ =>
      cases he
  | stopped _ _ =>
      cases List.mem_singleton.mp he
      exact .stopped hold
  | @swept sweep _ _ report hsweeps =>
      rcases hsweeps.edits e he with ⟨m, rfl⟩ | ⟨r, rfl⟩
      · rcases hsweeps.merged he with ⟨⟨s, reply⟩, hpair, hmerged⟩
        -- Only the order to register a host admits a sweep of it.
        have horder : order = .attach sweep.host := by
          have hadmits := h.admits t _ hold
          cases order with
          | start group cause =>
              rcases hadmits with ⟨work, hjob⟩
              cases hjob
          | stop id cause =>
              rcases hadmits with ⟨k, hjob, _⟩
              cases hjob
          | attach host =>
              rcases hadmits with ⟨sweep', hjob, hhost⟩
              cases hjob
              rw [hhost]
        subst horder
        exact .refreshed hold hpair hmerged hmine
          (hsweeps.reattached_iff.mpr (Or.inr ⟨m, he, rfl⟩))
      · exact .purged hold

theorem tasks_advance (w : Fleet) (t : Nat) (order : Order) (step : Controller × Progress Job Outcome) :
    (w.advance t order step).tasks = Function.update w.tasks t (some ⟨order, step.2.stage⟩) :=
  rfl

theorem of_tasks_advance {t u : Nat} {order : Order} {step : Controller × Progress Job Outcome}
    {task : Task} (h : (w.advance u order step).tasks t = some task) :
    w.tasks t = some task ∨ t = u ∧ task = ⟨order, step.2.stage⟩ := by
  rw [tasks_advance] at h
  by_cases ht : t = u
  · rw [ht, Function.update_self] at h
    exact Or.inr ⟨ht, (Option.some.inj h).symm⟩
  · rw [Function.update_of_ne ht] at h
    exact Or.inl h

theorem of_tasks_spawn {t : Nat} {order : Order} {task : Task}
    (h : (w.spawn order).tasks t = some task) :
    w.tasks t = some task ∨ t = w.next ∧ task = ⟨order, .ordered⟩ := by
  rw [tasks_spawn] at h
  by_cases ht : t = w.next
  · rw [ht, Function.update_self] at h
    exact Or.inr ⟨ht, (Option.some.inj h).symm⟩
  · rw [Function.update_of_ne ht] at h
    exact Or.inl h

theorem Goes.resumes_of_ended {t : Nat} {env : Env} {replies : List Reply}
    (hgoes : w.Goes (.go t env replies) now es w') {order order' : Order} {job : Job}
    {outcome : Outcome} (htask : w.tasks t = some ⟨order, .asking job⟩)
    (hended : w'.tasks t = some ⟨order', .ended outcome⟩) :
    w.controller.Resumes env job replies es (.done outcome) := by
  cases hgoes with
  | still _ _ htasks =>
      rcases htasks t with hsame | ⟨hnone, _⟩
      · rw [hsame, htask] at hended
        cases hended
      · rw [htask] at hnone
        cases hnone
  | begin hold _ _ _ _ =>
      rw [htask] at hold
      cases hold
  | override hmove _ _ =>
      cases hmove
  | @resume _ _ _ _ _ _ _ p hold _ _ hresumes _ =>
      rw [htask] at hold
      cases hold
      rw [tasks_advance, Function.update_self] at hended
      cases p with
      | done outcome' =>
          cases hended
          exact hresumes
      | waiting job' =>
          cases hended

theorem Goes.makes (hgoes : w.Goes move now es w') (h : w.Sound) {e : Edit} (he : e ∈ es) :
    w.Makes w' move now e := by
  cases hgoes with
  | still _ _ _ | weather | restart =>
      cases he
  | begin hold hfresh _ hbegins _ =>
      rcases begins_only_place hbegins he with ⟨s, rfl, hid⟩
      exact .placed hold (hid ▸ hfresh)
  | resume hold _ _ hresumes _ =>
      exact makes_of_resumes h hold hresumes (Function.update_self _ _ _) he
  | override hmove hupdate _ =>
      rw [List.mem_singleton.mp he]
      exact .overridden hmove hupdate

/-!
# Identifiers
-/

theorem mem_ids_recovered (st : Store) (settings : ControlSettings) {id : ServerId} :
    id ∈ Store.ids (Controller.recovered settings st).store.index ↔ id ∈ Store.ids st.index :=
  (st.perm_all.map Server.id).mem_iff

theorem index_of_books {b : Books} {database : Database} (hbooks : w'.books = b.onDatabase database) :
    w'.controller.store.index = b.store.index :=
  congrArg (fun b => b.store.index) hbooks

theorem Goes.mem_placed (hgoes : w.Goes move now es w') {a : Identity} (ha : a ∈ w.placed) :
    a ∈ w'.placed := by
  rcases hgoes.edited_or_restart with ⟨b, database, hedited, hbooks⟩ | ⟨_, _, _, hplaced, _⟩
  · have hplaced : w'.placed = b.placed := congrArg Books.placed hbooks
    rw [hplaced]
    exact hedited.mem_placed ha
  · exact hplaced ▸ ha

theorem Goes.mem_placed_ids (hgoes : w.Goes move now es w') {id : ServerId}
    (hid : id ∈ w.placed.map Identity.id) : id ∈ w'.placed.map Identity.id := by
  rcases List.mem_map.mp hid with ⟨a, ha, hsame⟩
  exact List.mem_map.mpr ⟨a, hgoes.mem_placed ha, hsame⟩

theorem Goes.absent (hgoes : w.Goes move now es w') (h : w.Sound) {id : ServerId}
    (hplaced : id ∈ w.placed.map Identity.id)
    (habsent : id ∉ Store.ids w.controller.store.index) :
    (∀ e ∈ es, e.id ≠ id) ∧ id ∉ Store.ids w'.controller.store.index := by
  rcases hgoes.edited_or_restart with
    ⟨b, database, hedited, hbooks⟩ | ⟨settings, _, hes, _, hcontroller⟩
  · rw [index_of_books hbooks]
    exact ⟨hedited.id_ne_of_absent h.books hplaced habsent,
      hedited.absent h.books hplaced habsent⟩
  · rw [hes, hcontroller, mem_ids_recovered]
    exact ⟨fun e he => (List.not_mem_nil he).elim, habsent⟩

/-!
# Published events
-/

def events (w : Fleet) : List FleetEvent :=
  w.controller.feed.events

def published (w : Fleet) (move : Move) : List FleetEvent :=
  (w.step move).events.drop w.events.length

def history (w : Fleet) : List Move → List FleetEvent
  | [] => []
  | move :: rest => w.published move ++ (w.step move).history rest

theorem events_of_edited {b : Books} {database : Database} (hedited : w.books.Edited now es b)
    (hbooks : w'.books = b.onDatabase database) :
    w'.events = w.events ++ es.filterMap (Edit.event? now) := by
  have hfeed : w'.controller.feed = b.feed := congrArg Books.feed hbooks
  rw [Fleet.events, hfeed]
  exact hedited.events

theorem Goes.published (hgoes : w.Goes move now es (w.step move)) :
    w.published move = es.filterMap (Edit.event? now) := by
  rw [Fleet.published]
  rcases hgoes.edited_or_restart with
    ⟨b, database, hedited, hbooks⟩ | ⟨settings, _, hes, _, hcontroller⟩
  · rw [events_of_edited hedited hbooks]
    exact List.drop_left
  · have hnone : (w.step move).events = [] := by
      rw [Fleet.events, hcontroller]
      rfl
    rw [hnone, hes]
    exact List.drop_nil

theorem Goes.events_eq (hgoes : w.Goes move now es (w.step move))
    (hlasting : ∀ settings, move ≠ .restart settings) :
    (w.step move).events = w.events ++ w.published move := by
  rcases hgoes.edited hlasting with ⟨b, database, hedited, hbooks⟩
  rw [hgoes.published, events_of_edited hedited hbooks]

theorem run_append (settings : ControlSettings) (moves more : List Move) :
    run settings (moves ++ more) = more.foldl Fleet.step (run settings moves) := by
  rw [run, List.foldl_append, ← run]

theorem run_snoc (settings : ControlSettings) (moves : List Move) (move : Move) :
    run settings (moves ++ [move]) = (run settings moves).step move :=
  run_append settings moves [move]

theorem history_append (w : Fleet) (moves more : List Move) :
    w.history (moves ++ more) = w.history moves ++ (moves.foldl Fleet.step w).history more := by
  induction moves generalizing w with
  | nil =>
      rfl
  | cons move rest ih =>
      rw [List.cons_append, history, ih, history, List.append_assoc]
      rfl

theorem history_snoc (settings : ControlSettings) (moves : List Move) (move : Move) :
    (fresh settings).history (moves ++ [move]) =
      (fresh settings).history moves ++ (run settings moves).published move := by
  rw [history_append, history, history, List.append_nil, ← run]

/-!
# Steady runs
-/

/-- Neither is the controller brought up anew nor will the database refuse to delete a server. -/
def Move.Steady : Move → Prop
  | .weather _ _ refusal => ∀ key, refusal (.deleteServer key) = none
  | .restart _ => False
  | _ => True

theorem Move.Steady.lasting (h : move.Steady) (settings : ControlSettings) :
    move ≠ .restart settings := by
  intro hrestart
  rw [hrestart] at h
  exact h

def Deletes (w : Fleet) : Prop :=
  ∀ key, w.controller.store.database.refusal (.deleteServer key) = none

theorem Goes.deletes (hgoes : w.Goes move now es w') (hsteady : move.Steady) (hdeletes : w.Deletes) :
    w'.Deletes := by
  have hedits {b : Books} (hedited : w.books.Edited now es b) (key : String) :
      b.store.database.refusal (.deleteServer key) = none := by
    rw [hedited.refusal_eq]
    exact hdeletes key
  cases hgoes with
  | still hcontroller _ _ =>
      intro key
      rw [hcontroller]
      exact hdeletes key
  | weather =>
      exact hsteady
  | restart =>
      exact hsteady.elim
  | begin _ _ _ _ hedited =>
      exact hedits hedited
  | resume _ _ _ _ hedited =>
      exact hedits hedited
  | override _ _ hedited =>
      exact hedits hedited

theorem deletes_run (settings : ControlSettings) {moves : List Move}
    (hsteady : ∀ move ∈ moves, move.Steady) : (run settings moves).Deletes := by
  induction moves using List.reverseRecOn with
  | nil =>
      intro key
      rfl
  | append_singleton moves move ih =>
      rcases (sound_run settings moves).goes move with ⟨now, es, hgoes⟩
      rw [run_snoc]
      exact hgoes.deletes (hsteady move (List.mem_append_right _ List.mem_cons_self))
        (ih fun earlier hmem => hsteady earlier (List.mem_append_left _ hmem))

end Fleet
end ServerFleet
