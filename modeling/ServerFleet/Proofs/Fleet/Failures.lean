import ServerFleet.Proofs.Fleet.Caps
import ServerFleet.Proofs.Fleet.Launches
import ServerFleet.Proofs.Fleet.Registrations

/-!
# Starts that fail

A start that fails has published nothing, and its launch is over.  Its record is gone
and its number free again, unless the database refuses to delete the record: then both
are kept.  If nothing else has gone on meanwhile the controller is as it was before.
-/

namespace ServerFleet

namespace Controller

def refusing (c : Controller) (refusal : Statement → Option String) : Controller :=
  { c with store.database.refusal := refusal }

def launching (c : Controller) (s : Server) : Controller :=
  { c with
    store := { c.store.stored s with launching := s.id :: c.store.launching }
    numbers := c.numbers.take s.group s.number.toNat }

/-- The record of a server is still in the index and in the table, and its number is held. -/
structure Retains (c : Controller) (s : Server) : Prop where
  record : ∃ r, c.store.get? s.id = some r ∧ r.identity = s.identity ∧
    ServerRow.ofServer r ∈ c.store.database.servers
  number : c.numbers.isHeld s.group s.number.toNat = true

variable {c c' : Controller} {env : Env} {placed placed' : List Identity} {s : Server} {work : StartWork}

/-!
# Steps of a start
-/

theorem frame_beginStart (c : Controller) (env : Env) (group : String) (cause : Cause) :
    (c.beginStart env group cause).1.feed = c.feed ∧
      (c.beginStart env group cause).1.settings = c.settings ∧
      (c.beginStart env group cause).1.hosts = c.hosts := by
  rw [beginStart]
  split
  next =>
    exact ⟨rfl, rfl, rfl⟩
  next =>
    exact ⟨rfl, rfl, rfl⟩
  next =>
    split
    next =>
      exact ⟨rfl, rfl, rfl⟩
    next =>
      split
      next =>
        exact ⟨rfl, rfl, rfl⟩
      next =>
        rw [place]
        simp only
        split
        next =>
          exact ⟨rfl, rfl, rfl⟩
        next =>
          exact ⟨rfl, rfl, rfl⟩

theorem eq_of_books (hbooks : c'.books placed' = c.books placed)
    (hframe : c'.settings = c.settings ∧ c'.hosts = c.hosts) : c' = c := by
  cases c
  cases c'
  simp only [books, Books.mk.injEq] at hbooks
  simp only at hframe
  rw [hframe.left, hframe.right, hbooks.left, hbooks.right.left, hbooks.right.right.left]

theorem beginStart_eq (h : (c.books placed).Sound) (hfresh : env.serverId ∉ placed.map Identity.id)
    (group : String) (cause : Cause) :
    (∃ e, c.beginStart env group cause = (c, .done (.error e))) ∨
      ∃ l, c.beginStart env group cause = (c.launching l.provisional, .waiting (.launching l)) ∧
        (Edit.place l.provisional).Fits (c.books placed) := by
  have hframe := frame_beginStart c env group cause
  rcases beginStart_cases h hfresh group cause with
    ⟨e, hbegin, _⟩ | ⟨g, host, number, c', _, _, _, hbegin, hfits, hbooks⟩
  · exact Or.inl ⟨e, hbegin⟩
  · rw [hbegin] at hframe
    refine Or.inr ⟨⟨g, host, c.provisional env env.serverId g host number, cause⟩, ?_, hfits⟩
    have hsame : c' = c.launching (c.provisional env env.serverId g host number) :=
      eq_of_books hbooks hframe.right
    rw [hbegin, hsame]

theorem rollBack_eq (h : c.store.Consistent) (hid : s.id ∈ Store.ids c.store.index) :
    c.rollBack s =
      match c.store.database.refusal (.deleteServer s.id.text) with
      | none => { c with store := c.store.without s.id }.releaseNumber s
      | some _ => c := by
  rcases Store.exists_get?_iff.mpr hid with ⟨r, hr⟩
  rw [rollBack, h.remove_eq, hr]
  cases c.store.database.refusal (.deleteServer s.id.text) with
  | none =>
      rfl
  | some reason =>
      rfl

theorem resumeStart_eq (env : Env) (h : (c.books placed).Sound)
    (hfits : (Job.start work).Fits (c.books placed)) (answer : Answer) :
    (∃ work', c.resumeStart env work answer = (c, .waiting work') ∧
        work'.provisional = work.provisional) ∨
      (∃ m, (c.resumeStart env work answer).2 = .done (.ok m)) ∨
      ∃ e, c.resumeStart env work answer =
        ((c.rollBack work.provisional).endLaunch work.provisional.id, .done (.error e)) := by
  cases work with
  | undoing u =>
      rcases (hfits.right.right u rfl).right with ⟨reason, hfailure⟩
      refine Or.inr (Or.inr ⟨.storage (.refused reason), ?_⟩)
      rw [resumeStart, hfailure]
      rfl
  | launching l =>
      rw [resumeStart]
      cases hmerged : answer.bind fun theirs => l.provisional.merge theirs env.now with
      | error e =>
          exact Or.inr (Or.inr ⟨_, rfl⟩)
      | ok m =>
          rcases commit_cases env h hfits.left hfits.right.left (Server.identity_of_bind hmerged) with
            ⟨c', hcommit, _, _⟩ | ⟨reason, _, hcommit⟩
          · exact Or.inr (Or.inl ⟨m, congrArg Prod.snd hcommit⟩)
          · exact Or.inl ⟨_, hcommit, rfl⟩

theorem consistent_refusing (h : c.store.Consistent) (refusal : Statement → Option String) :
    (c.refusing refusal).store.Consistent where
  table := h.table
  rows := h.rows
  nodup := h.nodup
  places := h.places

theorem rollBack_launching (h : c.store.Consistent) (hid : s.id ∉ Store.ids c.store.index)
    (hplace : ¬ c.store.Occupied s) (hidle : s.id ∉ c.store.launching) (htidy : c.numbers.Tidy)
    (hfree : s.slot ∉ c.numbers)
    (hrefusal : c.store.database.refusal (.deleteServer s.id.text) = none) :
    ((c.launching s).rollBack s).endLaunch s.id = c := by
  have hstore : (c.launching s).store.Consistent := (h.stored hplace).withLaunching _
  have hpresent : s.id ∈ Store.ids (c.launching s).store.index :=
    (Store.ids_stored s s.id).mpr (Or.inl rfl)
  have hkept : (c.launching s).store.database.refusal (.deleteServer s.id.text) = none := hrefusal
  have hwithout : ({ c.store.stored s with launching := s.id :: c.store.launching } : Store).without s.id =
      { c.store with launching := s.id :: c.store.launching } :=
    congrArg (fun st : Store => { st with launching := s.id :: c.store.launching }) (h.without_stored hid)
  have hend := Store.endLaunch_beginLaunch hidle
  rw [Store.beginLaunch_of_not_mem hidle] at hend
  have hrelease := Numbers.release_take htidy hfree
  rw [rollBack_eq hstore hpresent, hkept]
  simp only [launching, releaseNumber, endLaunch, hwithout, hend, hrelease]

end Controller

namespace Fleet

structure Fails (w : Fleet) (t : Nat) (env : Env) (replies : List Reply) (group : String) (cause : Cause)
    (stage : Stage) (e : ControlError) : Prop where
  before : w.tasks t = some ⟨.start group cause, stage⟩
  running : ∀ outcome, stage ≠ .ended outcome
  after : (w.step (.go t env replies)).tasks t = some ⟨.start group cause, .ended (.server (.error e))⟩

/-- Only a task goes on, or the database turns to refusing other statements. -/
def Move.OnlyGoes (t : Nat) (database : Database) : Move → Prop
  | .go u _ _ => u = t
  | .weather groups hasGroups _ => groups = database.groups ∧ hasGroups = database.hasGroups
  | _ => False

/-- A task is over, or a crash has made it forgotten. -/
structure Over (w : Fleet) (t : Nat) (order : Order) (outcome : Outcome) : Prop where
  issued : t < w.next
  ended : w.tasks t = some ⟨order, .ended outcome⟩ ∨ w.tasks t = none

/-- To what a start alone has brought the controller at a stage. -/
inductive Brings (c : Controller) : Stage → Controller → Prop where
  | ordered (refusal : Statement → Option String) : Brings c .ordered (c.refusing refusal)
  | asking {work : StartWork} (refusal : Statement → Option String)
      (hnew : work.provisional.id ∉ Store.ids c.store.index)
      (hidle : work.provisional.id ∉ c.store.launching)
      (hfree : work.provisional.slot ∉ c.numbers) :
      Brings c (.asking (.start work)) ((c.launching work.provisional).refusing refusal)
  | ended (outcome : Outcome) (c' : Controller) : Brings c (.ended outcome) c'

variable {w : Fleet} {t : Nat} {env : Env} {replies : List Reply} {group : String} {cause : Cause}
  {order : Order} {outcome : Outcome} {stage : Stage} {e : ControlError} {c : Controller}
  {placed : List Identity} {move : Move}

/-!
# The step that fails
-/

theorem Fails.of_ordered (hfails : w.Fails t env replies group cause .ordered e) (h : w.Sound) :
    (w.step (.go t env replies)).controller = w.controller ∧
      env.serverId ∉ w.placed.map Identity.id := by
  have hbefore := hfails.before
  have hafter := hfails.after
  rw [Fleet.step, Fleet.go, hbefore] at hafter ⊢
  simp only at hafter ⊢
  split at hafter
  next =>
    rw [hbefore] at hafter
    cases hafter
  next hfresh =>
    rw [if_neg hfresh]
    refine ⟨?_, hfresh⟩
    rw [tasks_advance, Function.update_self] at hafter
    show (w.controller.begin env (.start group cause)).1 = w.controller
    rcases Controller.beginStart_eq h.books hfresh group cause with ⟨e', hbegin⟩ | ⟨l, hbegin, _⟩
    · rw [Controller.begin, hbegin]
    · rw [Controller.begin, hbegin] at hafter
      cases hafter

theorem Fails.of_asking {work : StartWork}
    (hfails : w.Fails t env replies group cause (.asking (.start work)) e) (h : w.Sound) :
    (w.step (.go t env replies)).controller =
      (w.controller.rollBack work.provisional).endLaunch work.provisional.id := by
  have hbefore := hfails.before
  have hafter := hfails.after
  have hfits : (Job.start work).Fits w.books := h.fits t _ hbefore
  rw [Fleet.step, Fleet.go, hbefore] at hafter ⊢
  simp only at hafter ⊢
  split at hafter
  next hreplies =>
    rw [if_pos hreplies]
    rw [tasks_advance, Function.update_self] at hafter
    show (w.controller.resume env (.start work) replies).1 = _
    rcases Controller.resumeStart_eq env h.books hfits (Controller.single replies) with
      ⟨work', hresume, _⟩ | ⟨m, hresume⟩ | ⟨e', hresume⟩
    · rw [Controller.resume, hresume] at hafter
      cases hafter
    · simp only [Controller.resume, hresume] at hafter
      cases hafter
    · rw [Controller.resume, hresume]
  next =>
    rw [hbefore] at hafter
    cases hafter

theorem Fails.leaves {work : StartWork} (hfails : w.Fails t env replies group cause (.asking (.start work)) e)
    (h : w.Sound) :
    let c' := (w.step (.go t env replies)).controller
    work.provisional.id ∉ c'.store.launching ∧
      (w.controller.store.database.refusal (.deleteServer work.provisional.id.text) = none →
        c'.store.Lacks work.provisional.id ∧
          c'.numbers.isHeld work.provisional.group work.provisional.number.toNat = false) ∧
      ∀ reason,
        w.controller.store.database.refusal (.deleteServer work.provisional.id.text) = some reason →
        c'.Retains work.provisional := by
  have hfits : (Job.start work).Fits w.books := h.fits t _ hfails.before
  have hstore : w.controller.store.Consistent := h.books.store
  rcases Controller.launching_record h.books hfits.left hfits.right.left with ⟨r, hr, hidentity⟩
  have hrollback := Controller.rollBack_eq hstore (Store.exists_get?_iff.mp ⟨r, hr⟩)
  intro c'
  have hc' : c' = (w.controller.rollBack work.provisional).endLaunch work.provisional.id :=
    hfails.of_asking h
  rw [hc']
  refine ⟨?_, ?_, ?_⟩
  · exact fun hid => (Store.mem_endLaunch.mp hid).right rfl
  · intro hrefusal
    rw [hrollback, hrefusal]
    constructor
    · have hgone : work.provisional.id ∉
          Store.ids (w.controller.store.without work.provisional.id).index :=
        fun hid => ((Store.ids_without _ _).mp hid).right rfl
      have hlacks := (hstore.without work.provisional.id).lacks hgone
      exact ⟨hlacks.index, hlacks.table⟩
    · rw [← Bool.not_eq_true, Numbers.isHeld_iff]
      exact fun hheld => (Numbers.mem_release.mp hheld).right rfl
  · intro reason hrefusal
    rw [hrollback, hrefusal]
    have hheld := h.books.isHeld hr
    have hgroup : r.group = work.provisional.group := congrArg Identity.group hidentity
    have hnumber : r.number = work.provisional.number := congrArg Identity.number hidentity
    rw [hgroup, hnumber] at hheld
    exact ⟨⟨r, hr, hidentity, hstore.mem_rows (Store.mem_of_get? hr).left⟩, hheld⟩

/-!
# Tasks that are over
-/

theorem Sound.over (h : w.Sound) (hended : w.tasks t = some ⟨order, .ended outcome⟩) :
    w.Over t order outcome where
  issued := by
    apply Nat.lt_of_not_le
    intro hnext
    rw [h.bound t hnext] at hended
    cases hended
  ended := Or.inl hended

theorem Over.spawn (hover : w.Over t order outcome) (ordered : Order) :
    (w.spawn ordered).Over t order outcome where
  issued := Nat.lt_succ_of_lt hover.issued
  ended := by
    rw [tasks_spawn, Function.update_of_ne (Nat.ne_of_lt hover.issued)]
    exact hover.ended

theorem Over.advancePass (hover : w.Over t order outcome) (p : Nat) (progress : Progress Pass PassStats) :
    (w.advancePass p progress).Over t order outcome := by
  cases progress with
  | done stats =>
      exact ⟨hover.issued, hover.ended⟩
  | waiting pass =>
      have hspawn := hover.spawn pass.order
      exact ⟨hspawn.issued, hspawn.ended⟩

theorem Over.goPass (hover : w.Over t order outcome) (p : Nat) : (w.goPass p).Over t order outcome := by
  rw [Fleet.goPass]
  split
  next =>
    exact hover
  next =>
    exact hover
  next =>
    split
    next =>
      exact ⟨hover.issued, hover.ended⟩
    next =>
      exact hover.advancePass p _
  next =>
    split
    next =>
      exact hover.advancePass p _
    next =>
      exact hover

theorem Over.tasks_go (hover : w.Over t order outcome) (u : Nat) (env : Env) (replies : List Reply) :
    (w.go u env replies).tasks t = w.tasks t := by
  have hother {ordered : Order} {stage : Stage} {step : Controller × Progress Job Outcome}
      (hold : w.tasks u = some ⟨ordered, stage⟩) (hrunning : ∀ outcome, stage ≠ .ended outcome) :
      (w.advance u ordered step).tasks t = w.tasks t := by
    rw [tasks_advance, Function.update_of_ne]
    intro htu
    rw [← htu] at hold
    rcases hover.ended with hended | hnone
    · rw [hold] at hended
      cases hended
      exact hrunning outcome rfl
    · rw [hold] at hnone
      cases hnone
  rw [Fleet.go]
  split
  next =>
    rfl
  next =>
    rfl
  next hold =>
    split
    next =>
      rfl
    next =>
      exact hother hold fun outcome hended => Stage.noConfusion hended
  next hold =>
    split
    next =>
      exact hother hold fun outcome hended => Stage.noConfusion hended
    next =>
      rfl

theorem Over.step (hover : w.Over t order outcome) (h : w.Sound) (move : Move) :
    (w.step move).Over t order outcome := by
  cases move with
  | order ordered =>
      exact hover.spawn ordered
  | stopNumber group number cause =>
      rw [Fleet.step]
      split
      next =>
        exact hover
      next s _ =>
        exact hover.spawn _
  | orderPass =>
      exact ⟨Nat.lt_succ_of_lt hover.issued, hover.ended⟩
  | go u env replies =>
      constructor
      case issued =>
        rw [Fleet.step, (passes_go w u env replies).right]
        exact hover.issued
      case ended =>
        rw [Fleet.step, hover.tasks_go]
        exact hover.ended
  | goPass p =>
      exact hover.goPass p
  | setState env id state | setProperty env id key value | weather groups hasGroups refusal =>
      exact ⟨hover.issued, hover.ended⟩
  | restart settings =>
      rw [Fleet.step, h.restart_eq]
      exact ⟨hover.issued, Or.inr rfl⟩

theorem Over.foldl (hover : w.Over t order outcome) (h : w.Sound) (moves : List Move) :
    (moves.foldl Fleet.step w).Over t order outcome := by
  induction moves generalizing w with
  | nil =>
      exact hover
  | cons move rest ih =>
      exact ih (hover.step h move) (h.step move)

theorem Sound.over_of_published (h : w.Sound) (hpublished : w.published (.go t env replies) ≠ []) :
    ∃ order outcome, (w.step (.go t env replies)).tasks t = some ⟨order, .ended outcome⟩ ∧
      ∀ e, outcome ≠ .server (.error e) := by
  rcases h.goes (.go t env replies) with ⟨now, es, hgoes⟩
  rw [hgoes.published] at hpublished
  generalize w.step (.go t env replies) = w' at *
  cases hgoes with
  | still _ _ _ =>
      exact absurd rfl hpublished
  | begin _ _ _ hbegins _ =>
      cases hbegins with
      | placed _ _ _ | startRefused _ | stopRefused _ | stopping _ _ _ | attached | sweeping =>
          exact absurd rfl hpublished
  | override hmove _ _ =>
      cases hmove
  | @resume _ order _ _ _ _ _ _ _ _ _ hresumes _ =>
      cases hresumes with
      | committed _ =>
          exact ⟨order, _, Function.update_self _ _ _, fun e he => nomatch he⟩
      | stopped _ _ =>
          exact ⟨order, _, Function.update_self _ _ _, fun e he => nomatch he⟩
      | swept _ =>
          exact ⟨order, _, Function.update_self _ _ _, fun e he => nomatch he⟩
      | uncommitted _ _ | failed _ _ | failedKept _ _ | undone _ _ | undoneKept _ _ | stopFailed _ =>
          exact absurd rfl hpublished

theorem published_of_failed (settings : ControlSettings) {moves : List Move} {order : Order}
    (htask : (run settings moves).tasks t = some ⟨order, .ended (.server (.error e))⟩)
    {before after : List Move} {env : Env} {replies : List Reply}
    (hmoves : moves = before ++ .go t env replies :: after) :
    (run settings before).published (.go t env replies) = [] := by
  have h := sound_run settings before
  by_contra hpublished
  rcases h.over_of_published hpublished with ⟨order', outcome, hover, herror⟩
  have hsound := h.step (.go t env replies)
  rw [hmoves, run_append, List.foldl_cons] at htask
  rcases ((hsound.over hover).foldl hsound after).ended with hsame | hnone
  · rw [htask] at hsame
    cases hsame
    exact herror e rfl
  · rw [htask] at hnone
    cases hnone

/-!
# Starts that are alone
-/

theorem Brings.begin (h : w.Sound) {refusal : Statement → Option String}
    (hcontroller : w.controller = c.refusing refusal)
    (htask : w.tasks t = some ⟨.start group cause, .ordered⟩) (env : Env) (replies : List Reply) :
    ∃ stage, (w.go t env replies).tasks t = some ⟨.start group cause, stage⟩ ∧
      Brings c stage (w.go t env replies).controller := by
  rw [Fleet.go, htask]
  simp only
  split
  next =>
    exact ⟨.ordered, htask, hcontroller ▸ .ordered refusal⟩
  next hfresh =>
    refine ⟨_, Function.update_self _ _ _, ?_⟩
    rcases Controller.beginStart_eq h.books hfresh group cause with ⟨e, hbegin⟩ | ⟨l, hbegin, hfits⟩
    · simp only [advance, Controller.begin, hbegin]
      exact .ended _ _
    · simp only [advance, Controller.begin, hbegin]
      have hnew : l.provisional.id ∉ Store.ids w.controller.store.index := fun hid =>
        hfits.left (h.books.placed_of_ids hid)
      have hidle : l.provisional.id ∉ w.controller.store.launching := fun hid =>
        hnew (h.books.launching _ hid)
      have hfree : l.provisional.slot ∉ w.controller.numbers := hfits.right
      rw [hcontroller] at hnew hidle hfree ⊢
      have hasking : Brings c (.asking (.start (.launching l)))
          ((c.launching l.provisional).refusing refusal) :=
        .asking refusal hnew hidle hfree
      exact hasking

theorem Brings.resume (h : w.Sound) {work : StartWork}
    (hbrings : Brings c (.asking (.start work)) w.controller)
    (htask : w.tasks t = some ⟨.start group cause, .asking (.start work)⟩) (env : Env)
    (replies : List Reply) :
    ∃ stage, (w.go t env replies).tasks t = some ⟨.start group cause, stage⟩ ∧
      Brings c stage (w.go t env replies).controller := by
  have hfits : (Job.start work).Fits w.books := h.fits t _ htask
  rw [Fleet.go, htask]
  simp only
  split
  next =>
    refine ⟨_, Function.update_self _ _ _, ?_⟩
    rcases Controller.resumeStart_eq env h.books hfits (Controller.single replies) with
      ⟨work', hresume, hsame⟩ | ⟨m, hresume⟩ | ⟨e, hresume⟩
    · simp only [advance, Controller.resume, hresume]
      generalize w.controller = c₁ at hbrings
      cases hbrings with
      | asking refusal hnew hidle hfree =>
          rw [← hsame] at hnew hidle hfree ⊢
          exact .asking refusal hnew hidle hfree
    · simp only [advance, Controller.resume, hresume]
      exact .ended _ _
    · simp only [advance, Controller.resume, hresume]
      exact .ended _ _
  next =>
    exact ⟨_, htask, hbrings⟩

theorem Brings.weather (hbrings : Brings c stage w.controller) (refusal : Statement → Option String) :
    Brings c stage (w.weather c.store.database.groups c.store.database.hasGroups refusal).controller := by
  rw [Fleet.weather]
  generalize w.controller = c₁ at hbrings
  cases hbrings with
  | ordered _ =>
      exact .ordered refusal
  | asking _ hnew hidle hfree =>
      exact .asking refusal hnew hidle hfree
  | ended outcome _ =>
      exact .ended outcome _

theorem Brings.step (hbrings : Brings c stage w.controller) (h : w.Sound)
    (htask : w.tasks t = some ⟨.start group cause, stage⟩) (hmove : move.OnlyGoes t c.store.database) :
    ∃ stage', (w.step move).tasks t = some ⟨.start group cause, stage'⟩ ∧
      Brings c stage' (w.step move).controller := by
  cases move with
  | go u env replies =>
      cases hmove
      cases stage with
      | ordered =>
          generalize hcontroller : w.controller = c₁ at hbrings
          cases hbrings with
          | ordered refusal =>
              exact Brings.begin h hcontroller htask env replies
      | asking job =>
          rcases h.admits t _ htask with ⟨work, rfl⟩
          exact Brings.resume h hbrings htask env replies
      | ended outcome =>
          refine ⟨.ended outcome, ?_, .ended outcome _⟩
          rw [Fleet.step, (h.over htask).tasks_go, htask]
  | weather groups hasGroups refusal =>
      rcases hmove with ⟨rfl, rfl⟩
      exact ⟨stage, htask, hbrings.weather refusal⟩
  | order _ | stopNumber _ _ _ | orderPass | goPass _ | setState _ _ _ | setProperty _ _ _ _ | restart _ =>
      exact hmove.elim

theorem brings_run (settings : ControlSettings) {before between : List Move}
    (htask : (run settings before).tasks t = some ⟨.start group cause, .ordered⟩)
    (hmoves : ∀ move ∈ between,
      move.OnlyGoes t (run settings before).controller.store.database) :
    ∃ stage, (run settings (before ++ between)).tasks t = some ⟨.start group cause, stage⟩ ∧
      Brings (run settings before).controller stage (run settings (before ++ between)).controller := by
  induction between using List.reverseRecOn with
  | nil =>
      rw [List.append_nil]
      exact ⟨.ordered, htask, .ordered _⟩
  | append_singleton between move ih =>
      rcases ih fun earlier hmem => hmoves earlier (List.mem_append_left _ hmem) with
        ⟨stage, hstage, hbrings⟩
      rw [← List.append_assoc, run_snoc]
      exact hbrings.step (sound_run settings _) hstage
        (hmoves move (List.mem_append_right _ List.mem_cons_self))

theorem Fails.restores (hfails : w.Fails t env replies group cause stage e) (h : w.Sound)
    (hbrings : Brings c stage w.controller) (hc : (c.books placed).Sound)
    (hdeletes : ∀ work, stage = .asking (.start work) →
      w.controller.store.database.refusal (.deleteServer work.provisional.id.text) = none) :
    ∃ refusal, (w.step (.go t env replies)).controller = c.refusing refusal := by
  generalize hcontroller : w.controller = c₁ at hbrings hdeletes
  cases hbrings with
  | ordered refusal =>
      exact ⟨refusal, (hfails.of_ordered h).left.trans hcontroller⟩
  | @asking work refusal hnew hidle hfree =>
      refine ⟨refusal, ?_⟩
      rw [hfails.of_asking h, hcontroller]
      exact Controller.rollBack_launching (Controller.consistent_refusing hc.store refusal) hnew
        (hc.not_occupied_of_free hfree) hidle hc.tidy hfree (hdeletes work rfl)
  | ended outcome _ =>
      exact absurd rfl (hfails.running outcome)

/-- When a start fails, none of the moves of its task has published anything.  If it fails as it begins it
changes nothing, and the identifier it was given is not in use.  Later its launch is over, and there is
neither a record of its server nor is the number held, unless the database refuses to delete the record;
then the record and the number are kept.  A start that was alone and could delete its record leaves the
controller as it was before, but for what the database refuses now. -/
theorem failed_start_leaves_nothing (settings : ControlSettings) (moves : List Move)
    (hfails : (run settings moves).Fails t env replies group cause stage e) :
    let w := run settings moves
    let w' := w.step (.go t env replies)
    (∀ before env₀ replies₀ after,
      moves ++ [.go t env replies] = before ++ .go t env₀ replies₀ :: after →
      (run settings before).published (.go t env₀ replies₀) = []) ∧
    (stage = .ordered →
      w'.controller = w.controller ∧ env.serverId ∉ w.controller.store.launching ∧
        w.controller.store.Lacks env.serverId) ∧
    (∀ work, stage = .asking (.start work) →
      work.provisional.id ∉ w'.controller.store.launching ∧
      (w.controller.store.database.refusal (.deleteServer work.provisional.id.text) = none →
        w'.controller.store.Lacks work.provisional.id ∧
          w'.controller.numbers.isHeld work.provisional.group work.provisional.number.toNat = false) ∧
      ∀ reason,
        w.controller.store.database.refusal (.deleteServer work.provisional.id.text) = some reason →
        w'.controller.Retains work.provisional) ∧
    ∀ before between, moves = before ++ between →
      (run settings before).tasks t = some ⟨.start group cause, .ordered⟩ →
      (∀ move ∈ between, move.OnlyGoes t (run settings before).controller.store.database) →
      (∀ work, stage = .asking (.start work) →
        w.controller.store.database.refusal (.deleteServer work.provisional.id.text) = none) →
      ∃ refusal, w'.controller = (run settings before).controller.refusing refusal := by
  have h := sound_run settings moves
  intro w w'
  refine ⟨?_, ?_, ?_, ?_⟩
  · intro before env₀ replies₀ after hmoves
    have hafter := hfails.after
    rw [← run_snoc] at hafter
    exact published_of_failed settings hafter hmoves
  · intro hordered
    subst hordered
    rcases hfails.of_ordered h with ⟨hsame, hfresh⟩
    have hnew : env.serverId ∉ Store.ids w.controller.store.index := fun hid =>
      hfresh (h.books.placed_of_ids hid)
    exact ⟨hsame, fun hid => hnew (h.books.launching _ hid), h.books.store.lacks hnew⟩
  · intro work hasking
    subst hasking
    exact hfails.leaves h
  · intro before between hmoves hordered halone hdeletes
    rcases brings_run settings hordered halone with ⟨stage', hstage, hbrings⟩
    rw [← hmoves, hfails.before] at hstage
    cases hstage
    rw [← hmoves] at hbrings
    exact hfails.restores h hbrings (sound_run settings before).books hdeletes

def rollsBack? (w : Fleet) (t : Nat) (env : Env) (replies : List Reply) (group : String) (cause : Cause)
    (id : ServerId) : Bool :=
  match w.tasks t, (w.step (.go t env replies)).tasks t with
  | some ⟨.start group' cause', .asking (.start work)⟩,
      some ⟨.start group'' cause'', .ended (.server (.error _))⟩ =>
      decide (group' = group ∧ group'' = group ∧ cause' = cause ∧ cause'' = cause ∧
        work.provisional.id = id)
  | _, _ => false

theorem fails_of_rollsBack? {id : ServerId} (h : w.rollsBack? t env replies group cause id = true) :
    ∃ work e, w.Fails t env replies group cause (.asking (.start work)) e ∧ work.provisional.id = id := by
  rw [rollsBack?] at h
  split at h
  next hbefore hafter =>
    rcases of_decide_eq_true h with ⟨rfl, rfl, rfl, rfl, hid⟩
    exact ⟨_, _, ⟨hbefore, fun outcome hended => Stage.noConfusion hended, hafter⟩, hid⟩
  next =>
    cases h

namespace Overlap

def requested : List Move :=
  moves.take 4

def begun : List Move :=
  [.go 1 ⟨noon, server⟩ []]

def noRoute : List Reply :=
  [⟨.error (.unreachable "no route"), noon⟩]

end Overlap

open Overlap in
theorem failed_start_leaves_nothing_no_route :
    ∃ stage e,
      (run settings (requested ++ begun)).Fails 1 ⟨noon, server⟩ noRoute "lobby" .api stage e ∧
      (run settings (requested ++ begun)).published (.go 1 ⟨noon, server⟩ noRoute) = [] ∧
      server ∈ (run settings (requested ++ begun)).controller.store.launching ∧
      ((run settings (requested ++ begun)).step (.go 1 ⟨noon, server⟩ noRoute)).controller.store.Lacks
        server ∧
      ∃ refusal, ((run settings (requested ++ begun)).step (.go 1 ⟨noon, server⟩ noRoute)).controller =
        (run settings requested).controller.refusing refusal := by
  have hrolls : (run settings (requested ++ begun)).rollsBack? 1 ⟨noon, server⟩ noRoute "lobby" .api
      server = true := by
    decide +kernel
  have hordered : (run settings requested).tasks 1 = some ⟨.start "lobby" .api, .ordered⟩ := by
    rfl
  rcases fails_of_rollsBack? hrolls with ⟨work, e, hfails, hid⟩
  rcases failed_start_leaves_nothing settings _ hfails with ⟨hsilent, _, hgone, halone⟩
  have hsteady : ∀ move ∈ requested ++ begun, move.Steady := by
    simp [requested, begun, moves, Move.Steady]
  have hrefusal := deletes_run settings hsteady work.provisional.id.text
  refine ⟨_, e, hfails, hsilent _ _ _ [] rfl, by decide +kernel, ?_, ?_⟩
  · exact hid ▸ ((hgone work rfl).right.left hrefusal).left
  · apply halone requested begun rfl hordered
    · intro move hmove
      rw [List.mem_singleton.mp hmove]
      exact rfl
    · intro work' hwork
      cases hwork
      exact hrefusal

end Fleet
end ServerFleet
