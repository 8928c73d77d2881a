import Mathlib.Data.List.Perm.Subperm
import ServerFleet.Proofs.Fleet.Confinement
import ServerFleet.Proofs.Fleet.Registrations
import ServerFleet.Proofs.Store.Groups

/-!
# Passes and caps

A pass counts the servers of a group and has one started if there is room.  The server
is placed later, by the task of its start, and other work goes on meanwhile.  While
nobody else starts servers this can only make room: there is never more than one start
that was ordered and not begun, and it is the one that the pass waits for.
-/

namespace ServerFleet

/-!
# Counting
-/

namespace Store

variable {st : Store}

theorem Consistent.countInGroup_le {known : Store} (h : st.Consistent)
    (hknown : ∀ r ∈ st.index, ∃ own ∈ known.index, own.id = r.id ∧ own.group = r.group)
    (group : String) : st.countInGroup group ≤ known.countInGroup group := by
  have hnodup : ((st.index.filter fun s => s.group == group).map Server.id).Nodup :=
    h.nodup.sublist (List.filter_sublist.map Server.id)
  have hsubset : (st.index.filter fun s => s.group == group).map Server.id ⊆
      (known.index.filter fun s => s.group == group).map Server.id := by
    intro id hid
    rcases List.mem_map.mp hid with ⟨r, hr, rfl⟩
    rw [List.mem_filter] at hr
    rcases hknown r hr.left with ⟨own, hown, hsame, hgroup⟩
    exact List.mem_map.mpr ⟨own, List.mem_filter.mpr ⟨hown, hgroup ▸ hr.right⟩, hsame⟩
  have hle := (List.subperm_of_subset hnodup hsubset).length_le
  rw [List.length_map, List.length_map] at hle
  exact hle

theorem countInGroup_stored {s : Server} (h : s.id ∉ ids st.index) (group : String) :
    (st.stored s).countInGroup group = st.countInGroup group + if s.group = group then 1 else 0 := by
  rw [countInGroup, stored, put_of_not_mem h, List.filter_append, List.length_append, ← countInGroup]
  by_cases hgroup : s.group = group
  · simp [hgroup]
  · simp [hgroup]

end Store

namespace Books

variable {b b' : Books} {now : Time.Instant} {es : List Edit}

theorem Edited.countInGroup_le (hes : Edited now b es b') (h : b.Sound)
    (hquiet : ∀ e ∈ es, e.begun? = none) (group : String) :
    b'.store.countInGroup group ≤ b.store.countInGroup group := by
  apply (hes.sound h).store.countInGroup_le
  intro r hr
  rcases List.mem_map.mp ((hes.mem_ids h hquiet).mp (Store.mem_ids hr)).left with ⟨own, hown, hid⟩
  exact ⟨own, hown, hid, congrArg Identity.group (hes.identity_eq h hown hr hid)⟩

theorem Sound.countInGroup_place (h : b.Sound) {s : Server} (hs : (Edit.place s).Fits b)
    (group : String) : (b.edit now (.place s)).store.countInGroup group =
      b.store.countInGroup group + if s.group = group then 1 else 0 := by
  have hnew : s.id ∉ Store.ids b.store.index := fun hmem => hs.left (h.placed_of_ids hmem)
  exact Store.countInGroup_stored hnew group

end Books

/-- A pass waits for a start in one of some groups, which has room, with none but these to come. -/
structure Pass.HasRoom (pass : Pass) (c : Controller) (groups : List Group) : Prop where
  group : pass.group ∈ groups
  remaining : ∀ g ∈ pass.remaining, g ∈ groups
  room : c.store.countInGroup pass.group.name < pass.group.maxOnline.toNat

namespace Controller

variable {c : Controller} {groups : List Group} {stats : PassStats} {pass : Pass}

theorem hasRoom_of_nextStart? {g : Group} {wanted : Nat} {remaining : List Group}
    (h : c.nextStart? g wanted remaining stats = some pass) (hg : g ∈ groups)
    (hremaining : ∀ g ∈ remaining, g ∈ groups) : pass.HasRoom c groups := by
  rw [nextStart?] at h
  split at h
  next =>
    cases h
  next hroom =>
    cases h
    exact ⟨hg, hremaining, Nat.lt_of_not_le fun hfull => hroom (Or.inr hfull)⟩

theorem hasRoom_of_passGroups {turns : List Group} (hturns : ∀ g ∈ turns, g ∈ groups)
    (h : c.passGroups stats turns = .waiting pass) : pass.HasRoom c groups := by
  induction turns generalizing stats with
  | nil =>
      cases h
  | cons g rest ih =>
      have hrest : ∀ g ∈ rest, g ∈ groups := fun g' hg' => hturns g' (List.mem_cons_of_mem g hg')
      rw [passGroups] at h
      split at h
      next hnext =>
        cases h
        exact hasRoom_of_nextStart? hnext (hturns g List.mem_cons_self) hrest
      next =>
        exact ih hrest h

theorem hasRoom_of_resumePass {p : Pass} {result : ServerResult} (hgroup : p.group ∈ groups)
    (hremaining : ∀ g ∈ p.remaining, g ∈ groups) (h : c.resumePass p result = .waiting pass) :
    pass.HasRoom c groups := by
  cases result with
  | error e =>
      exact hasRoom_of_passGroups hremaining h
  | ok s =>
      rw [resumePass] at h
      simp only at h
      split at h
      next hnext =>
        cases h
        exact hasRoom_of_nextStart? hnext hgroup hremaining
      next =>
        exact hasRoom_of_passGroups hremaining h

end Controller

namespace Fleet

/-- A move has nothing started beside what a pass orders, and leaves the groups filed under their names. -/
def Move.LeavesStartsTo (p : Nat) : Move → Prop
  | .order (.start _ _) => False
  | .goPass other => other = p
  | .weather groups _ _ => GroupRow.Filed groups
  | _ => True

/-- A pass over some groups is under way or over.  Of the group with a name there are no more servers than a
limit allows, and a start that was ordered but has not begun is the one that the pass waits for, with
room for its server. -/
structure Capped (w : Fleet) (p : Nat) (groups : List Group) (name : String) (limit : Nat) : Prop where
  filed : GroupRow.Filed w.controller.store.database.groups
  issued : p < w.next
  begun : w.passes p ≠ some .ordered
  within : ∀ pass start, w.passes p = some (.waiting pass start) →
    pass.group ∈ groups ∧ ∀ g ∈ pass.remaining, g ∈ groups
  count : w.controller.store.countInGroup name ≤ limit
  starts : ∀ t group cause, w.tasks t = some ⟨.start group cause, .ordered⟩ →
    (∃ pass, w.passes p = some (.waiting pass t)) ∧
      (group = name → w.controller.store.countInGroup name < limit)

variable {w w' : Fleet} {p : Nat} {groups : List Group} {name : String} {limit : Nat}

theorem Capped.keep (hw : w.Capped p groups name limit)
    (hfiled : GroupRow.Filed w'.controller.store.database.groups) (hnext : w.next ≤ w'.next)
    (hpasses : w'.passes p = w.passes p)
    (hcount : w'.controller.store.countInGroup name ≤ w.controller.store.countInGroup name)
    (htasks : ∀ t group cause, w'.tasks t = some ⟨.start group cause, .ordered⟩ →
      w.tasks t = some ⟨.start group cause, .ordered⟩) : w'.Capped p groups name limit := by
  constructor
  case filed =>
    exact hfiled
  case issued =>
    exact Nat.lt_of_lt_of_le hw.issued hnext
  case begun =>
    rw [hpasses]
    exact hw.begun
  case within =>
    rw [hpasses]
    exact hw.within
  case count =>
    exact Nat.le_trans hcount hw.count
  case starts =>
    intro t group cause htask
    have hstarts := hw.starts t group cause (htasks t group cause htask)
    rw [hpasses]
    exact ⟨hstarts.left, fun hname => Nat.lt_of_le_of_lt hcount (hstarts.right hname)⟩

theorem Capped.spawn (hw : w.Capped p groups name limit) {order : Order}
    (horder : ∀ group cause, order ≠ .start group cause) :
    (w.spawn order).Capped p groups name limit := by
  refine hw.keep hw.filed (Nat.le_succ _) rfl (Nat.le_refl _) ?_
  intro t group cause htask
  rcases of_tasks_spawn htask with hold | ⟨_, hnew⟩
  · exact hold
  · exact absurd (congrArg Task.order hnew).symm (horder group cause)

theorem capped_advancePass (hfiled : GroupRow.Filed w.controller.store.database.groups)
    (hissued : p < w.next) (hcount : w.controller.store.countInGroup name ≤ limit)
    (hidle : ∀ t group cause, w.tasks t ≠ some ⟨.start group cause, .ordered⟩)
    (hcaps : ∀ g ∈ groups, g.name = name → g.maxOnline.toNat ≤ limit)
    {progress : Progress Pass PassStats}
    (hprogress : ∀ pass, progress = .waiting pass → pass.HasRoom w.controller groups) :
    (w.advancePass p progress).Capped p groups name limit := by
  cases progress with
  | done stats =>
      constructor
      case filed =>
        exact hfiled
      case issued =>
        exact hissued
      case begun =>
        simp [Fleet.advancePass]
      case within =>
        simp [Fleet.advancePass]
      case count =>
        exact hcount
      case starts =>
        intro t group cause htask
        exact absurd htask (hidle t group cause)
  | waiting pass =>
      have hroom := hprogress pass rfl
      constructor
      case filed =>
        exact hfiled
      case issued =>
        exact Nat.lt_succ_of_lt hissued
      case begun =>
        simp [Fleet.advancePass]
      case within =>
        intro pass' start hwaiting
        simp only [Fleet.advancePass, Function.update_self, Option.some.injEq, PassStage.waiting.injEq]
          at hwaiting
        rw [← hwaiting.left]
        exact ⟨hroom.group, hroom.remaining⟩
      case count =>
        exact hcount
      case starts =>
        intro t group cause htask
        rcases of_tasks_spawn htask with hold | ⟨rfl, hnew⟩
        · exact absurd hold (hidle t group cause)
        · cases congrArg Task.order hnew
          refine ⟨⟨pass, Function.update_self _ _ _⟩, ?_⟩
          intro hname
          have hcap := hcaps pass.group hroom.group hname
          have hlt := hroom.room
          rw [hname] at hlt
          exact Nat.lt_of_lt_of_le hlt hcap

theorem Capped.goPass (hw : w.Capped p groups name limit)
    (hcaps : ∀ g ∈ groups, g.name = name → g.maxOnline.toNat ≤ limit) :
    (w.goPass p).Capped p groups name limit := by
  rw [Fleet.goPass]
  split
  next =>
    exact hw
  next =>
    exact hw
  next hordered =>
    exact absurd hordered hw.begun
  next pass start hwaiting =>
    split
    next hended =>
      -- The start that the pass waited for is over, so none is left that has not begun.
      have hidle (t : Nat) (group : String) (cause : Cause) :
          w.tasks t ≠ some ⟨.start group cause, .ordered⟩ := by
        intro htask
        rcases (hw.starts t group cause htask).left with ⟨pass', hpass'⟩
        rw [hwaiting] at hpass'
        cases hpass'
        rw [htask] at hended
        cases hended
      apply capped_advancePass hw.filed hw.issued hw.count hidle hcaps
      intro pass' hpass'
      have hwithin := hw.within pass start hwaiting
      exact Controller.hasRoom_of_resumePass hwithin.left hwithin.right hpass'
    next =>
      exact hw

theorem stage_ne_ordered (progress : Progress Job Outcome) : progress.stage ≠ .ordered := by
  cases progress with
  | done outcome =>
      exact Stage.noConfusion
  | waiting job =>
      exact Stage.noConfusion

theorem ordered_of_advance {t u : Nat} {order ordered : Order}
    {step : Controller × Progress Job Outcome}
    (h : (w.advance t ordered step).tasks u = some ⟨order, .ordered⟩) :
    w.tasks u = some ⟨order, .ordered⟩ ∧ u ≠ t := by
  rw [tasks_advance] at h
  by_cases hu : u = t
  · rw [hu, Function.update_self] at h
    exact absurd (congrArg Task.stage (Option.some.inj h)) (stage_ne_ordered step.2)
  · rw [Function.update_of_ne hu] at h
    exact ⟨h, hu⟩

theorem Capped.advance (hw : w.Capped p groups name limit) {t : Nat} {order : Order} {es : List Edit}
    {now : Time.Instant} {step : Controller × Progress Job Outcome}
    (hedited : w.books.Edited now es (w.advance t order step).books)
    (hcount : step.1.store.countInGroup name ≤ w.controller.store.countInGroup name) :
    (w.advance t order step).Capped p groups name limit := by
  refine hw.keep ?_ (Nat.le_refl _) rfl hcount ?_
  · rcases hedited.database_eq with ⟨servers, hdatabase⟩
    have hgroups := congrArg Database.groups hdatabase
    rw [show (w.advance t order step).controller.store.database.groups = _ from hgroups]
    exact hw.filed
  · intro u group cause htask
    exact (ordered_of_advance htask).left

theorem Capped.placed (hw : w.Capped p groups name limit) (h : w.Sound) {t : Nat} {group : String}
    {cause : Cause} (hold : w.tasks t = some ⟨.start group cause, .ordered⟩) {s : Server}
    (hgroup : s.group = group) {now : Time.Instant} {step : Controller × Progress Job Outcome}
    (hedited : w.books.Edited now [.place s] (w.advance t (.start group cause) step).books) :
    (w.advance t (.start group cause) step).Capped p groups name limit := by
  have hedit := Books.edited_single_iff.mp hedited
  have hstore : step.1.store = (w.books.edit now (.place s)).store := congrArg Books.store hedit.right
  have hstarts := hw.starts t group cause hold
  constructor
  case filed =>
    show GroupRow.Filed step.1.store.database.groups
    rw [hstore]
    exact hw.filed
  case issued =>
    exact hw.issued
  case begun =>
    exact hw.begun
  case within =>
    exact hw.within
  case count =>
    show step.1.store.countInGroup name ≤ limit
    rw [hstore, h.books.countInGroup_place hedit.left, hgroup]
    split
    next hname =>
      exact hstarts.right hname
    next =>
      exact hw.count
  case starts =>
    -- Whoever has not begun is the one that the pass waits for, and this one has just begun.
    intro u group' cause' htask
    rcases ordered_of_advance htask with ⟨hother, hne⟩
    rcases hstarts.left with ⟨pass, hwaiting⟩
    rcases (hw.starts u group' cause' hother).left with ⟨pass', hwaiting'⟩
    rw [hwaiting] at hwaiting'
    cases hwaiting'
    exact absurd rfl hne

theorem Capped.begin (hw : w.Capped p groups name limit) (h : w.Sound) {t : Nat} {order : Order}
    {env : Env} (hold : w.tasks t = some ⟨order, .ordered⟩)
    (hfresh : env.serverId ∉ w.placed.map Identity.id) :
    (w.advance t order (w.controller.begin env order)).Capped p groups name limit := by
  rcases Controller.begins_begin h.books hfresh order with ⟨es, hbegins, hedited⟩
  have hedited' : w.books.Edited env.now es
      (w.advance t order (w.controller.begin env order)).books := hedited
  have hquiet (hes : ∀ e ∈ es, e.begun? = none) :
      (w.advance t order (w.controller.begin env order)).Capped p groups name limit :=
    hw.advance hedited' (hedited'.countInGroup_le h.books hes name)
  generalize w.controller.begin env order = step at *
  cases step with
  | mk c progress =>
      cases hbegins with
      | placed hgroup _ _ =>
          exact hw.placed h hold (Database.name_of_findGroup hw.filed hgroup) hedited'
      | startRefused _ | stopRefused _ | stopping _ _ _ | attached | sweeping =>
          exact hquiet fun e he => (List.not_mem_nil he).elim

theorem Capped.resume (hw : w.Capped p groups name limit) (h : w.Sound) {t : Nat} {order : Order}
    {job : Job} (hold : w.tasks t = some ⟨order, .asking job⟩) (env : Env) (replies : List Reply) :
    (w.advance t order (w.controller.resume env job replies)).Capped p groups name limit := by
  have hjob : job.Fits w.books := h.fits t _ hold
  rcases Controller.resumes_resume env h.books hjob replies with ⟨es, hresumes, hedited⟩
  rw [← books_resume t order hresumes] at hedited
  apply hw.advance hedited
  apply hedited.countInGroup_le h.books
  intro e he
  exact (hresumes.asked hjob e he).left

theorem Capped.go (hw : w.Capped p groups name limit) (h : w.Sound) (t : Nat) (env : Env)
    (replies : List Reply) : (w.go t env replies).Capped p groups name limit := by
  rw [Fleet.go]
  split
  next =>
    exact hw
  next =>
    exact hw
  next order hold =>
    split
    next =>
      exact hw
    next hfresh =>
      exact hw.begin h hold hfresh
  next order job hold =>
    split
    next =>
      exact hw.resume h hold env replies
    next =>
      exact hw

theorem Capped.update (hw : w.Capped p groups name limit) (h : w.Sound) (env : Env) (id : ServerId)
    {change : Server → Server} (hchange : ∀ s, (change s).identity = s.identity) :
    ({ w with controller := (w.controller.update env id change).1 } : Fleet).Capped p groups name
      limit := by
  rcases Controller.update_cases env h.books id hchange with
    ⟨e, hupdate, _⟩ | ⟨before, after, c', hupdate, _, hfits, hbooks⟩
  · rw [hupdate]
    exact hw
  · rw [hupdate]
    have hedited : w.books.Edited env.now [.override before after] (c'.books w.placed) :=
      Books.edited_single_iff.mpr ⟨hfits, hbooks⟩
    refine hw.keep ?_ (Nat.le_refl _) rfl ?_ fun _ _ _ htask => htask
    · rcases hedited.database_eq with ⟨servers, hdatabase⟩
      have hgroups := congrArg Database.groups hdatabase
      rw [show c'.store.database.groups = _ from hgroups]
      exact hw.filed
    · refine hedited.countInGroup_le h.books ?_ name
      intro e he
      rw [List.mem_singleton.mp he]
      rfl

theorem Capped.restart (hw : w.Capped p groups name limit) (h : w.Sound) (settings : ControlSettings) :
    (w.restart settings).Capped p groups name limit := by
  rw [h.restart_eq]
  have hcount : (Controller.recovered settings w.controller.store).store.countInGroup name =
      w.controller.store.countInGroup name :=
    (w.controller.store.perm_all.filter _).length_eq
  constructor
  case filed =>
    exact hw.filed
  case issued =>
    exact hw.issued
  case begun =>
    intro hordered
    cases hordered
  case within =>
    intro pass start hwaiting
    cases hwaiting
  case count =>
    exact hcount ▸ hw.count
  case starts =>
    intro t group cause htask
    cases htask

theorem Capped.step (hw : w.Capped p groups name limit) (h : w.Sound)
    (hcaps : ∀ g ∈ groups, g.name = name → g.maxOnline.toNat ≤ limit) {move : Move}
    (hmove : move.LeavesStartsTo p) : (w.step move).Capped p groups name limit := by
  cases move with
  | order order =>
      apply hw.spawn
      intro group cause horder
      subst horder
      exact hmove
  | stopNumber group number cause =>
      rw [Fleet.step]
      split
      next =>
        exact hw
      next ordered hordered =>
        obtain ⟨s, _, rfl⟩ := Controller.stopByNumber_eq_ok_iff.mp hordered
        exact hw.spawn fun group cause horder => Order.noConfusion horder
  | orderPass =>
      refine hw.keep hw.filed (Nat.le_succ _) ?_ (Nat.le_refl _) fun _ _ _ htask => htask
      exact Function.update_of_ne (Nat.ne_of_lt hw.issued) _ _
  | go t env replies =>
      exact hw.go h t env replies
  | goPass other =>
      have hother : other = p := hmove
      rw [hother]
      exact hw.goPass hcaps
  | setState env id state =>
      exact hw.update h env id fun _ => rfl
  | setProperty env id key value =>
      exact hw.update h env id fun _ => rfl
  | weather groups hasGroups refusal =>
      exact hw.keep hmove (Nat.le_refl _) rfl (Nat.le_refl _) fun _ _ _ htask => htask
  | restart settings =>
      exact hw.restart h settings

/-!
# Runs with a pass
-/

theorem next_advancePass (w : Fleet) (p : Nat) (progress : Progress Pass PassStats) :
    w.next ≤ (w.advancePass p progress).next := by
  cases progress with
  | done stats =>
      exact Nat.le_refl _
  | waiting pass =>
      exact Nat.le_succ _

theorem next_goPass (w : Fleet) (p : Nat) : w.next ≤ (w.goPass p).next := by
  rw [Fleet.goPass]
  split
  next =>
    exact Nat.le_refl _
  next =>
    exact Nat.le_refl _
  next =>
    split
    next =>
      exact Nat.le_refl _
    next =>
      exact next_advancePass w p _
  next =>
    split
    next =>
      exact next_advancePass w p _
    next =>
      exact Nat.le_refl _

theorem passes_advancePass {q : Nat} (hq : q ≠ p) (progress : Progress Pass PassStats) :
    (w.advancePass p progress).passes q = w.passes q := by
  cases progress with
  | done stats =>
      exact Function.update_of_ne hq _ _
  | waiting pass =>
      exact Function.update_of_ne hq _ _

theorem passes_goPass {q : Nat} (hq : q ≠ p ∨ w.passes p = none) :
    (w.goPass p).passes q = w.passes q := by
  rcases hq with hq | hnone
  · rw [Fleet.goPass]
    split
    next =>
      rfl
    next =>
      rfl
    next =>
      split
      next =>
        exact Function.update_of_ne hq _ _
      next =>
        exact passes_advancePass hq _
    next =>
      split
      next =>
        exact passes_advancePass hq _
      next =>
        rfl
  · rw [Fleet.goPass, hnone]

theorem passes_go (w : Fleet) (t : Nat) (env : Env) (replies : List Reply) :
    (w.go t env replies).passes = w.passes ∧ (w.go t env replies).next = w.next := by
  rw [Fleet.go]
  split
  next =>
    exact ⟨rfl, rfl⟩
  next =>
    exact ⟨rfl, rfl⟩
  next =>
    split
    next =>
      exact ⟨rfl, rfl⟩
    next =>
      exact ⟨rfl, rfl⟩
  next =>
    split
    next =>
      exact ⟨rfl, rfl⟩
    next =>
      exact ⟨rfl, rfl⟩

theorem passes_eq_none (settings : ControlSettings) (moves : List Move) :
    ∀ q, (run settings moves).next ≤ q → (run settings moves).passes q = none := by
  refine (run_induction (P := fun w => ∀ q, w.next ≤ q → w.passes q = none) settings
    (fun _ _ => rfl) ?_ moves).right
  intro w move h hw q hq
  cases move with
  | order order =>
      exact hw q (Nat.le_of_succ_le hq)
  | stopNumber group number cause =>
      cases hs : w.controller.stopByNumber group number cause with
      | error e =>
          simp only [Fleet.step, hs] at hq ⊢
          exact hw q hq
      | ok s =>
          simp only [Fleet.step, hs] at hq ⊢
          exact hw q (Nat.le_of_succ_le hq)
  | orderPass =>
      have hlt : w.next < q := hq
      exact (Function.update_of_ne (Nat.ne_of_gt hlt) _ _).trans (hw q (Nat.le_of_lt hlt))
  | go t env replies =>
      have hgo := passes_go w t env replies
      rw [Fleet.step, hgo.right] at hq
      rw [Fleet.step, hgo.left]
      exact hw q hq
  | goPass p =>
      have hnone := hw q (Nat.le_trans (next_goPass w p) hq)
      rw [Fleet.step, passes_goPass, hnone]
      by_cases hqp : q = p
      · exact Or.inr (hqp ▸ hnone)
      · exact Or.inl hqp
  | setState env id state | setProperty env id key value | weather groups hasGroups refusal =>
      exact hw q hq
  | restart settings =>
      rw [Fleet.step, h.restart_eq]

theorem capped_run (settings : ControlSettings) (before : List Move) {p : Nat} {groups : List Group}
    (hordered : (run settings before).passes p = some .ordered)
    (hgroups : (run settings before).controller.store.database.loadGroups = .ok groups)
    (hfiled : GroupRow.Filed (run settings before).controller.store.database.groups)
    (hidle : ∀ t group cause, (run settings before).tasks t ≠ some ⟨.start group cause, .ordered⟩)
    {name : String} {limit : Nat}
    (hcount : (run settings before).controller.store.countInGroup name ≤ limit)
    (hcaps : ∀ g ∈ groups, g.name = name → g.maxOnline.toNat ≤ limit) {between : List Move}
    (hbetween : ∀ move ∈ between, move.LeavesStartsTo p) :
    (run settings (before ++ .goPass p :: between)).Capped p groups name limit := by
  have hissued : p < (run settings before).next := by
    apply Nat.lt_of_not_le
    intro hnext
    rw [passes_eq_none settings before p hnext] at hordered
    cases hordered
  induction between using List.reverseRecOn with
  | nil =>
      rw [run_snoc, Fleet.step, Fleet.goPass, hordered, Controller.beginPass, hgroups]
      apply capped_advancePass hfiled hissued hcount hidle hcaps
      intro pass hpass
      exact Controller.hasRoom_of_passGroups (fun g hg => hg) hpass
  | append_singleton between move ih =>
      rw [← List.cons_append, ← List.append_assoc, run_snoc]
      have hw := ih fun earlier hmem => hbetween earlier (List.mem_append_left _ hmem)
      exact hw.step (sound_run settings _) hcaps (hbetween move (List.mem_append_right _ List.mem_cons_self))

/-- A pass begins while no start waits to begin, and all that happens from then on may be anything that
starts no server.  At every point of the pass each of its groups has at most as many servers as at the
beginning or as its cap allows, whichever is more, and no other group has more than at the beginning. -/
theorem passes_respect_caps (settings : ControlSettings) (before between : List Move) {p : Nat}
    {groups : List Group} (hordered : (run settings before).passes p = some .ordered)
    (hgroups : (run settings before).controller.store.database.loadGroups = .ok groups)
    (hfiled : GroupRow.Filed (run settings before).controller.store.database.groups)
    (hidle : ∀ t group cause, (run settings before).tasks t ≠ some ⟨.start group cause, .ordered⟩)
    (hbetween : ∀ move ∈ between, move.LeavesStartsTo p) :
    (∀ g ∈ groups,
      (run settings (before ++ .goPass p :: between)).controller.store.countInGroup g.name ≤
        max ((run settings before).controller.store.countInGroup g.name) g.maxOnline.toNat) ∧
    ∀ name, (∀ g ∈ groups, g.name ≠ name) →
      (run settings (before ++ .goPass p :: between)).controller.store.countInGroup name ≤
        (run settings before).controller.store.countInGroup name := by
  constructor
  · intro g hg
    refine (capped_run settings before hordered hgroups hfiled hidle (Nat.le_max_left _ _) ?_
      hbetween).count
    intro other hother hname
    -- No two groups of the pass have one name.
    rw [List.inj_on_of_nodup_map (Database.nodup_names hfiled hgroups) hother hg hname]
    exact Nat.le_max_right _ _
  · intro name hnone
    refine (capped_run settings before hordered hgroups hfiled hidle (Nat.le_refl _) ?_ hbetween).count
    intro g hg hname
    exact absurd hname (hnone g hg)

/-!
# A pass over one group
-/

namespace Lobby

open Overlap

def lobby : Group where
  name := "lobby"
  serverType := "game"
  memoryMin := 512
  memoryMax := 1024
  startPort := 30000
  minOnline := 1
  maxOnline := 5
  maxPlayers := 10
  newInstanceRatio := 80
  policy := .playerRatio
  properties := .empty

def before : List Move := [
  .weather [.ofGroup lobby] true fun _ => none,
  .order (.attach host),
  .go 0 ⟨noon, server⟩ [],
  .orderPass]

def between : List Move := [
  .go 2 ⟨noon, server⟩ [],
  .go 2 ⟨noon, Id.ofNat 8⟩ [⟨.ok answer, noon⟩],
  .goPass 1]

theorem groups_before :
    (run settings before).controller.store.database.groups = [.ofGroup lobby] := by
  decide +kernel

theorem filed_before : GroupRow.Filed (run settings before).controller.store.database.groups := by
  have hempty : GroupRow.Filed [] := ⟨.nil, fun _ hrow => (List.not_mem_nil hrow).elim⟩
  rw [groups_before]
  exact Database.filed_putGroup hempty lobby

theorem loads_before :
    (run settings before).controller.store.database.loadGroups = .ok [lobby] := by
  have htable : (run settings before).controller.store.database.hasGroups = true := by
    decide +kernel
  rw [Database.loadGroups, if_pos htable, Database.sortedGroups, groups_before,
    List.mergeSort_singleton]
  exact Database.decodeBodies_cons_eq_ok_iff.mpr ⟨lobby, [], lobby.decodeText_toJson, rfl, rfl⟩

theorem idle_before (t : Nat) (group : String) (cause : Cause) :
    (run settings before).tasks t ≠ some ⟨.start group cause, .ordered⟩ := by
  intro htask
  match t with
  | 0 =>
      cases htask
  | 1 =>
      cases htask
  | later + 2 =>
      rw [(sound_run settings before).bound (later + 2) (Nat.le_add_left 2 later)] at htask
      cases htask

end Lobby

open Lobby Overlap in
theorem passes_respect_caps_lobby :
    (run settings before).passes 1 = some .ordered ∧
      (run settings before).controller.store.database.loadGroups = .ok [lobby] ∧
      (∀ g ∈ [lobby],
        (run settings (before ++ .goPass 1 :: between)).controller.store.countInGroup g.name ≤
          max ((run settings before).controller.store.countInGroup g.name) g.maxOnline.toNat) ∧
      ∀ name, (∀ g ∈ [lobby], g.name ≠ name) →
        (run settings (before ++ .goPass 1 :: between)).controller.store.countInGroup name ≤
          (run settings before).controller.store.countInGroup name := by
  refine ⟨rfl, loads_before, ?_⟩
  apply passes_respect_caps settings before between rfl loads_before filed_before idle_before
  simp [between, Move.LeavesStartsTo]

end Fleet
end ServerFleet
