import ServerFleet.Proofs.Fleet.Caps
import ServerFleet.Proofs.Scaling

/-!
# One pass is enough

A pass that has the fleet to itself, while every launch succeeds, gives each group the
servers it asks for, as far as its cap allows.  The turn of a group is an induction on
the starts that are still wanted, and the pass one on the groups to come: what is
started in the turn of a group leaves the demand of the others alone.
-/

namespace ServerFleet

/-- Hosts launch what they are asked for: they answer with the record that they were sent, with its load
and in a state that is not busy. -/
def Echoes (answer : AgentCall → Reply) : Prop :=
  ∀ host g s, ∃ theirs, (answer (.launch host g s)).answer = .ok theirs ∧ theirs.id = s.id ∧
    theirs.load = s.load ∧ theirs.state.isBusy = false

structure Server.FreshIn (s : Server) (g : Group) : Prop where
  group : s.group = g.name
  load : s.load = g.freshLoad
  idle : s.state.isBusy = false

theorem Store.countInGroup_of_append {st st' : Store} {added : List Server}
    (h : st'.index = st.index ++ added) (name : String) :
    st'.countInGroup name = st.countInGroup name + (added.filter fun s => s.group == name).length := by
  rw [countInGroup, h, List.filter_append, List.length_append, ← countInGroup]

namespace Controller

/-- The servers that a group asks for, as far as its cap allows. -/
def need (c : Controller) (g : Group) : Nat :=
  min (c.wantedIn g) (g.maxOnline.toNat - c.store.countInGroup g.name)

/-- One controller comes out of another by servers that were added; of the database only the rows of servers
are others. -/
structure Grown (c c' : Controller) (added : List Server) : Prop where
  index : c'.store.index = c.store.index ++ added
  database : ∃ servers, c'.store.database = { c.store.database with servers }
  hosts : c'.hosts = c.hosts

variable {c c' c'' : Controller} {placed : List Identity} {added more : List Server} {g : Group}
  {answer : AgentCall → Reply}

theorem Grown.refl (c : Controller) : c.Grown c [] where
  index := (List.append_nil _).symm
  database := ⟨_, rfl⟩
  hosts := rfl

theorem Grown.trans (h : c.Grown c' added) (h' : c'.Grown c'' more) : c.Grown c'' (added ++ more) where
  index := by
    rw [h'.index, h.index, List.append_assoc]
  database := by
    rcases h.database with ⟨servers, hdatabase⟩
    rcases h'.database with ⟨servers', hdatabase'⟩
    exact ⟨servers', by rw [hdatabase', hdatabase]⟩
  hosts := h'.hosts.trans h.hosts

theorem Grown.refusal (h : c.Grown c' added) :
    c'.store.database.refusal = c.store.database.refusal := by
  rcases h.database with ⟨servers, hdatabase⟩
  rw [hdatabase]

theorem Grown.findGroup (h : c.Grown c' added) (name : String) :
    c'.store.database.findGroup name = c.store.database.findGroup name := by
  rcases h.database with ⟨servers, hdatabase⟩
  rw [hdatabase]
  rfl

theorem Grown.loadGroups (h : c.Grown c' added) :
    c'.store.database.loadGroups = c.store.database.loadGroups := by
  rcases h.database with ⟨servers, hdatabase⟩
  rw [hdatabase]
  rfl

theorem Grown.countInGroup (h : c.Grown c' added) (name : String) :
    c'.store.countInGroup name =
      c.store.countInGroup name + (added.filter fun s => s.group == name).length :=
  Store.countInGroup_of_append h.index name

/-!
# A start that succeeds
-/

theorem exists_leastLoaded (count : HostId → Nat) {hosts : List Host} (h : hosts ≠ []) :
    ∃ host, leastLoaded count hosts = some host := by
  cases hosts with
  | nil =>
      exact absurd rfl h
  | cons host rest =>
      rw [leastLoaded]
      split
      next =>
        exact ⟨host, rfl⟩
      next best _ =>
        split
        next =>
          exact ⟨host, rfl⟩
        next =>
          exact ⟨best, rfl⟩

theorem hosts_place (c : Controller) (env : Env) (g : Group) (host : Host) (cause : Cause) :
    (c.place env g host cause).1.hosts = c.hosts := by
  rw [place]
  simp only
  split
  next =>
    rfl
  next =>
    rfl

theorem hosts_commit (c : Controller) (env : Env) (l : Launch) (m : Server) :
    (c.commit env l m).1.hosts = c.hosts := by
  rw [commit]
  split
  next =>
    rfl
  next =>
    rfl
  next =>
    rfl

theorem length_held_le (h : (c.books placed).Sound) (group : String) :
    (c.numbers.held group).length ≤ c.store.countInGroup group := by
  have hnodup : (c.numbers.held group).Nodup := (h.tidy.ascending_held group).imp Nat.ne_of_lt
  have hsubset : c.numbers.held group ⊆
      (c.store.index.filter fun s => s.group == group).map fun s => s.number.toNat := by
    intro number hnumber
    rcases (h.taken (group, number)).mp hnumber with ⟨s, hs, hslot⟩
    cases hslot
    exact List.mem_map.mpr ⟨s, List.mem_filter.mpr ⟨hs, beq_self_eq_true s.group⟩, rfl⟩
  have hle := (List.subperm_of_subset hnodup hsubset).length_le
  rw [List.length_map] at hle
  exact hle

theorem index_committed {p m : Server} {index : List Server} (hnew : p.id ∉ Store.ids index)
    (hid : m.id = p.id) : Store.put m (Store.put p index) = index ++ [m] := by
  have hmem : m.id ∈ Store.ids (index ++ [p]) := by
    rw [hid]
    exact Store.mem_ids (List.mem_append_right _ List.mem_cons_self)
  rw [Store.put_of_not_mem hnew, Store.put_of_mem hmem, List.map_append, List.map_singleton,
    if_pos hid.symm]
  have hsame : (index.map fun r => if r.id = m.id then m else r) = index := by
    apply (List.map_congr_left fun r hr => if_neg ?_).trans (List.map_id index)
    intro hrid
    exact hnew (hid ▸ hrid ▸ Store.mem_ids hr)
  rw [hsame]

theorem merge_of_id {ours theirs : Server} (h : theirs.id = ours.id) (now : Time.Instant) :
    ∃ m, ours.merge theirs now = .ok m ∧ m.load = theirs.load ∧ m.state = theirs.state := by
  rw [Server.merge, if_neg (not_not.mpr h)]
  exact ⟨_, rfl, rfl, rfl⟩

theorem begin_places (h : (c.books placed).Sound) (hhosts : c.hosts ≠ [])
    (hsaves : ∀ key, c.store.database.refusal (.saveServer key) = none) {env : Env}
    (hfresh : env.serverId ∉ placed.map Identity.id)
    (hgroup : c.store.database.findGroup g.name = .ok (some g))
    (hroom : c.store.countInGroup g.name < UInt32.size) (cause : Cause) :
    ∃ c' host p, c.begin env (.start g.name cause) =
        (c', .waiting (.start (.launching ⟨g, host, p, cause⟩))) ∧
      (p.id = env.serverId ∧ p.group = g.name ∧ p.load = g.freshLoad) ∧ c'.hosts = c.hosts ∧
      (Edit.place p).Fits (c.books placed) ∧
      c'.books (p.identity :: placed) = (c.books placed).edit env.now (.place p) := by
  rcases exists_leastLoaded c.store.countOnHost hhosts with ⟨host, hhost⟩
  have hplacement : c.placement? = some host := hhost
  rcases Numbers.exists_firstFree? (Nat.lt_of_le_of_lt (length_held_le h g.name) hroom) with
    ⟨number, hnumber⟩
  rcases place_cases h hfresh hnumber host cause with
    ⟨reason, hrefused, _⟩ | ⟨c', hplace, hfits, hbooks⟩
  · rw [hsaves] at hrefused
    cases hrefused
  · refine ⟨c', host, _, ?_, ⟨rfl, rfl, rfl⟩, ?_, hfits, hbooks⟩
    · simp only [begin, beginStart, hgroup, hplacement, hnumber, hplace, Progress.lift]
    · rw [← hosts_place c env g host cause, hplace]

theorem resume_commits (h : (c.books placed).Sound)
    (hsaves : ∀ key, c.store.database.refusal (.saveServer key) = none) (env : Env) {l : Launch}
    (hplaced : l.provisional.identity ∈ placed) (hlaunching : l.provisional.id ∈ c.store.launching)
    {reply : Reply} {theirs : Server} (hreply : reply.answer = .ok theirs)
    (hid : theirs.id = l.provisional.id) :
    ∃ c' m, c.resume env (.start (.launching l)) [reply] = (c', .done (.server (.ok m))) ∧
      (m.identity = l.provisional.identity ∧ m.load = theirs.load ∧ m.state = theirs.state) ∧
      c'.hosts = c.hosts ∧ (Edit.commit m l.cause).Fits (c.books placed) ∧
      c'.books placed = (c.books placed).edit env.now (.commit m l.cause) := by
  rcases merge_of_id hid env.now with ⟨m, hmerge, hload, hstate⟩
  have hidentity := Server.identity_of_merge hmerge
  rcases commit_cases env h hplaced hlaunching hidentity with
    ⟨c', hcommit, hfits, hbooks⟩ | ⟨reason, hrefused, _⟩
  · refine ⟨c', m, ?_, ⟨hidentity, hload, hstate⟩, ?_, hfits, hbooks⟩
    · simp only [resume, resumeStart, single, hreply, Except.bind, hmerge, hcommit, Progress.lift]
    · rw [← hosts_commit c env l m, hcommit]
  · rw [hsaves] at hrefused
    cases hrefused

theorem grown_of_edits {c₁ : Controller} (h : (c.books placed).Sound) {p m : Server} {cause : Cause}
    {now now' : Time.Instant} (hfits : (Edit.place p).Fits (c.books placed))
    (hbooks : c₁.books (p.identity :: placed) = (c.books placed).edit now (.place p))
    (hhosts : c₁.hosts = c.hosts) (hidentity : m.identity = p.identity)
    (hbooks' : c'.books (p.identity :: placed) =
      (c₁.books (p.identity :: placed)).edit now' (.commit m cause))
    (hhosts' : c'.hosts = c₁.hosts) : c.Grown c' [m] := by
  have hstore : c₁.store = (Edit.place p).store c.store := congrArg Books.store hbooks
  have hstore' : c'.store = (Edit.commit m cause).store c₁.store := congrArg Books.store hbooks'
  constructor
  case index =>
    have hnew : p.id ∉ Store.ids c.store.index := fun hmem => hfits.left (h.placed_of_ids hmem)
    rw [hstore', hstore]
    exact index_committed hnew (Server.id_of_identity hidentity)
  case database =>
    rw [hstore', hstore]
    exact ⟨_, rfl⟩
  case hosts =>
    exact hhosts'.trans hhosts

theorem start_grows (h : (c.books placed).Sound) (hhosts : c.hosts ≠ [])
    (hsaves : ∀ key, c.store.database.refusal (.saveServer key) = none) (hechoes : Echoes answer)
    {env : Env} (hfresh : env.serverId ∉ placed.map Identity.id)
    (hgroup : c.store.database.findGroup g.name = .ok (some g))
    (hroom : c.store.countInGroup g.name < UInt32.size) (cause : Cause) (later : Env) :
    ∃ c₁ c₂ job s, c.begin env (.start g.name cause) = (c₁, .waiting job) ∧
      c₁.resume later job (job.calls.map answer) = (c₂, .done (.server (.ok s))) ∧
      c.Grown c₂ [s] ∧ s.FreshIn g ∧ s.id = env.serverId ∧
      (Progress.waiting job).placed = [s.identity] ∧ (c₂.books (s.identity :: placed)).Sound := by
  rcases begin_places h hhosts hsaves hfresh hgroup hroom cause with
    ⟨c₁, host, s, hbegin, ⟨hid, hname, hload⟩, hhosts₁, hfits, hbooks⟩
  have hsound : (c₁.books (s.identity :: placed)).Sound := hbooks ▸ h.edit env.now hfits
  have hstore : c₁.store = (Edit.place s).store c.store := congrArg Books.store hbooks
  have hsaves₁ : ∀ key, c₁.store.database.refusal (.saveServer key) = none := by
    rw [hstore]
    exact hsaves
  have hlaunching : s.id ∈ c₁.store.launching := by
    rw [hstore]
    exact List.mem_cons_self
  rcases hechoes host g s with ⟨theirs, hanswer, htheirs, htheirsload, hidle⟩
  rcases resume_commits (l := ⟨g, host, s, cause⟩) hsound hsaves₁ later List.mem_cons_self hlaunching
    hanswer htheirs with
    ⟨c₂, m, hresume, ⟨hidentity, hmload, hmstate⟩, hhosts₂, hfits₂, hbooks₂⟩
  refine ⟨c₁, c₂, _, m, hbegin, hresume,
    grown_of_edits h hfits hbooks hhosts₁ hidentity hbooks₂ hhosts₂, ?_,
    (Server.id_of_identity hidentity).trans hid, congrArg List.singleton hidentity.symm, ?_⟩
  · constructor
    case group =>
      exact (congrArg Identity.group hidentity).trans hname
    case load =>
      rw [hmload, htheirsload]
      exact hload
    case idle =>
      rw [hmstate]
      exact hidle
  · rw [hidentity, hbooks₂]
    exact hsound.edit later.now hfits₂

end Controller

namespace Fleet

/-- What a pass has to itself: hosts, writes that are not refused, and new identifiers for its starts. -/
structure Supplied (w : Fleet) (turns : List (Env × Env)) : Prop where
  sound : w.books.Sound
  hosts : w.controller.hosts ≠ []
  saves : ∀ key, w.controller.store.database.refusal (.saveServer key) = none
  nodup : (turns.map fun turn => turn.1.serverId).Nodup
  fresh : ∀ turn ∈ turns, turn.1.serverId ∉ w.placed.map Identity.id

def goAlone (answer : AgentCall → Reply) (p : Nat) (w : Fleet) (turn : Env × Env) : Fleet :=
  match w.passes p with
  | some (.waiting _ start) =>
      let begun := w.go start turn.1 []
      match begun.tasks start with
      | some ⟨_, .asking job⟩ => (begun.go start turn.2 (job.calls.map answer)).goPass p
      | _ => begun.goPass p
  | _ => w

/-- A pass with nothing else under way but the starts that it orders. -/
def passAlone (answer : AgentCall → Reply) (p : Nat) (turns : List (Env × Env)) (w : Fleet) : Fleet :=
  turns.foldl (goAlone answer p) (w.goPass p)

variable {w w' : Fleet} {p : Nat} {turn : Env × Env} {turns : List (Env × Env)} {g : Group}
  {answer : AgentCall → Reply}

theorem goAlone_eq_steps (answer : AgentCall → Reply) (p : Nat) (w : Fleet) (turn : Env × Env) :
    ∃ moves : List Move, goAlone answer p w turn = moves.foldl step w := by
  rw [goAlone]
  split
  next start _ =>
    simp only
    split
    next job _ =>
      exact ⟨[.go start turn.1 [], .go start turn.2 (job.calls.map answer), .goPass p], rfl⟩
    next =>
      exact ⟨[.go start turn.1 [], .goPass p], rfl⟩
  next =>
    exact ⟨[], rfl⟩

theorem foldl_goAlone_eq_steps (answer : AgentCall → Reply) (p : Nat) (turns : List (Env × Env))
    (w : Fleet) : ∃ moves : List Move, turns.foldl (goAlone answer p) w = moves.foldl step w := by
  induction turns generalizing w with
  | nil =>
      exact ⟨[], rfl⟩
  | cons turn turns ih =>
      rcases goAlone_eq_steps answer p w turn with ⟨moves, hmoves⟩
      rcases ih (goAlone answer p w turn) with ⟨more, hmore⟩
      exact ⟨moves ++ more, by rw [List.foldl_cons, hmore, hmoves, List.foldl_append]⟩

theorem passAlone_eq_run (answer : AgentCall → Reply) (p : Nat) (turns : List (Env × Env))
    (settings : ControlSettings) (before : List Move) :
    ∃ moves, passAlone answer p turns (run settings before) = run settings (before ++ moves) := by
  rcases foldl_goAlone_eq_steps answer p turns ((run settings before).goPass p) with ⟨moves, hmoves⟩
  refine ⟨.goPass p :: moves, ?_⟩
  rw [passAlone, hmoves, run, run, List.foldl_append]
  rfl

theorem goAlone_of_ended {result : Except StoreError PassStats} (h : w.passes p = some (.ended result)) :
    turns.foldl (goAlone answer p) w = w := by
  induction turns with
  | nil =>
      rfl
  | cons turn turns ih =>
      rw [List.foldl_cons, goAlone, h]
      exact ih

theorem go_of_ordered {t : Nat} {order : Order} {env : Env}
    (htask : w.tasks t = some ⟨order, .ordered⟩) (hfresh : env.serverId ∉ w.placed.map Identity.id)
    (replies : List Reply) :
    w.go t env replies = w.advance t order (w.controller.begin env order) := by
  rw [go, htask]
  exact if_neg hfresh

theorem go_of_asking {t : Nat} {order : Order} {job : Job} {replies : List Reply}
    (htask : w.tasks t = some ⟨order, .asking job⟩) (hlength : replies.length = job.calls.length)
    (env : Env) : w.go t env replies = w.advance t order (w.controller.resume env job replies) := by
  rw [go, htask]
  exact if_pos hlength

theorem goPass_of_ordered {groups : List Group} (hpass : w.passes p = some .ordered)
    (hgroups : w.controller.store.database.loadGroups = .ok groups) :
    w.goPass p = w.advancePass p (w.controller.passGroups ⟨0, 0, 0⟩ groups) := by
  rw [goPass, hpass, Controller.beginPass, hgroups]

theorem goPass_of_waiting {pass : Pass} {start : Nat} {order : Order} {result : ServerResult}
    (hpass : w.passes p = some (.waiting pass start))
    (htask : w.tasks start = some ⟨order, .ended (.server result)⟩) :
    w.goPass p = w.advancePass p (w.controller.resumePass pass result) := by
  rw [goPass, hpass]
  simp only [htask]

theorem goAlone_eq {pass : Pass} {start : Nat} {c₁ c₂ : Controller} {job : Job} {result : ServerResult}
    (hpass : w.passes p = some (.waiting pass start))
    (htask : w.tasks start = some ⟨pass.order, .ordered⟩)
    (hfresh : turn.1.serverId ∉ w.placed.map Identity.id)
    (hbegin : w.controller.begin turn.1 pass.order = (c₁, .waiting job))
    (hresume : c₁.resume turn.2 job (job.calls.map answer) = (c₂, .done (.server result))) :
    goAlone answer p w turn =
      ((w.advance start pass.order (c₁, .waiting job)).advance start pass.order
        (c₂, .done (.server result))).advancePass p (c₂.resumePass pass result) := by
  have hbegun : w.go start turn.1 [] = w.advance start pass.order (c₁, .waiting job) := by
    rw [go_of_ordered htask hfresh, hbegin]
  have hasking : (w.advance start pass.order (c₁, .waiting job)).tasks start =
      some ⟨pass.order, .asking job⟩ :=
    Function.update_self _ _ _
  have hlength : (job.calls.map answer).length = job.calls.length := List.length_map answer
  have hanswered := go_of_asking hasking hlength turn.2
  rw [goAlone, hpass]
  simp only [hbegun, hasking]
  rw [hanswered, show (w.advance start pass.order (c₁, .waiting job)).controller = c₁ from rfl, hresume]
  exact goPass_of_waiting hpass (Function.update_self _ _ _)

theorem Supplied.grown (h : w.Supplied (turn :: turns)) {s : Server} (hid : s.id = turn.1.serverId)
    (hgrown : w.controller.Grown w'.controller [s]) (hplaced : w'.placed = s.identity :: w.placed)
    (hsound : (w'.controller.books (s.identity :: w.placed)).Sound) : w'.Supplied turns := by
  have hids : (turn.1.serverId :: turns.map fun turn => turn.1.serverId).Nodup := h.nodup
  constructor
  case sound =>
    rw [books, hplaced]
    exact hsound
  case hosts =>
    rw [hgrown.hosts]
    exact h.hosts
  case saves =>
    rw [hgrown.refusal]
    exact h.saves
  case nodup =>
    exact (List.nodup_cons.mp hids).right
  case fresh =>
    intro later hlater
    rw [hplaced, List.map_cons, List.mem_cons, not_or]
    refine ⟨?_, h.fresh later (List.mem_cons_of_mem turn hlater)⟩
    intro hsame
    apply (List.nodup_cons.mp hids).left
    rw [← hid, ← show later.1.serverId = s.id from hsame]
    exact List.mem_map_of_mem hlater

theorem goAlone_grows {pass : Pass} {start : Nat} (h : w.Supplied (turn :: turns))
    (hechoes : Echoes answer) (hpass : w.passes p = some (.waiting pass start))
    (htask : w.tasks start = some ⟨pass.order, .ordered⟩)
    (hgroup : w.controller.store.database.findGroup pass.group.name = .ok (some pass.group))
    (hroom : w.controller.store.countInGroup pass.group.name < UInt32.size) :
    ∃ (w' : Fleet) (s : Server),
      goAlone answer p w turn = w'.advancePass p (w'.controller.resumePass pass (.ok s)) ∧
        w.controller.Grown w'.controller [s] ∧ s.FreshIn pass.group ∧ w'.Supplied turns := by
  have hfresh : turn.1.serverId ∉ w.placed.map Identity.id := h.fresh turn List.mem_cons_self
  rcases Controller.start_grows h.sound h.hosts h.saves hechoes hfresh hgroup hroom .scaleUp turn.2 with
    ⟨c₁, c₂, job, s, hbegin, hresume, hgrown, hfreshIn, hid, hplaced, hsound⟩
  have hplaced' : (Progress.waiting job).placed ++ w.placed = s.identity :: w.placed :=
    congrArg (· ++ w.placed) hplaced
  refine ⟨_, s, goAlone_eq hpass htask hfresh hbegin hresume, hgrown, hfreshIn, ?_⟩
  exact h.grown hid hgrown hplaced' hsound

end Fleet

/-!
# The turn of a group
-/

namespace Controller

variable {c c' c'' : Controller} {added more : List Server} {g other : Group} {wanted n : Nat}
  {rest : List Group} {stats : PassStats}

def turnOf (c : Controller) (g : Group) (wanted : Nat) (rest : List Group) (stats : PassStats) :
    Progress Pass PassStats :=
  match c.nextStart? g wanted rest stats with
  | some pass => .waiting pass
  | none => c.passGroups { stats with processed := stats.processed + 1 } rest

theorem turnOf_over (h : wanted = 0 ∨ g.maxOnline.toNat ≤ c.store.countInGroup g.name) :
    c.turnOf g wanted rest stats = c.passGroups { stats with processed := stats.processed + 1 } rest := by
  rw [turnOf, nextStart?, if_pos h]

theorem turnOf_start (hroom : c.store.countInGroup g.name < g.maxOnline.toNat) :
    c.turnOf g (wanted + 1) rest stats = .waiting ⟨g, wanted, rest, stats⟩ := by
  rw [turnOf, nextStart?, if_neg, Nat.add_sub_cancel]
  omega

structure Served (c c' : Controller) (g : Group) (n : Nat) (added : List Server) : Prop where
  grown : c.Grown c' added
  fresh : ∀ s ∈ added, s.FreshIn g
  length : added.length = n

theorem Served.nil : c.Served c g 0 [] where
  grown := .refl c
  fresh := fun _ hs => (List.not_mem_nil hs).elim
  length := rfl

theorem Served.cons {s : Server} (h : c'.Served c'' g n added) (hgrown : c.Grown c' [s])
    (hs : s.FreshIn g) : c.Served c'' g (n + 1) (s :: added) where
  grown := hgrown.trans h.grown
  fresh := List.forall_mem_cons.mpr ⟨hs, h.fresh⟩
  length := congrArg Nat.succ h.length

theorem Served.filter_self (h : c.Served c' g n added) :
    (added.filter fun s => s.group == g.name) = added :=
  List.filter_eq_self.mpr fun s hs => beq_iff_eq.mpr (h.fresh s hs).group

theorem Served.filter_other (h : c.Served c' g n added) (hne : other.name ≠ g.name) :
    (added.filter fun s => s.group == other.name) = [] := by
  rw [List.filter_eq_nil_iff]
  intro s hs hsame
  exact hne ((beq_iff_eq.mp hsame).symm.trans (h.fresh s hs).group)

end Controller

namespace Fleet

variable {w w' : Fleet} {p : Nat} {turns : List (Env × Env)} {g : Group} {answer : AgentCall → Reply}

theorem Supplied.advancePass (h : w.Supplied turns) (p : Nat) (progress : Progress Pass PassStats) :
    (w.advancePass p progress).Supplied turns := by
  cases progress with
  | done stats =>
      exact ⟨h.sound, h.hosts, h.saves, h.nodup, h.fresh⟩
  | waiting pass =>
      exact ⟨h.sound, h.hosts, h.saves, h.nodup, h.fresh⟩

theorem turn_grows (hechoes : Echoes answer) (wanted : Nat) (rest : List Group) (stats : PassStats)
    (h : w.Supplied turns) (hgroup : w.controller.store.database.findGroup g.name = .ok (some g))
    {n : Nat} (hn : n = min wanted (g.maxOnline.toNat - w.controller.store.countInGroup g.name))
    (hturns : n ≤ turns.length) :
    ∃ (w' : Fleet) (added : List Server),
      turns.foldl (goAlone answer p) (w.advancePass p (w.controller.turnOf g wanted rest stats)) =
        (turns.drop n).foldl (goAlone answer p) (w'.advancePass p
          (w'.controller.passGroups ⟨stats.processed + 1, stats.failed, stats.started + n⟩ rest)) ∧
        w.controller.Served w'.controller g n added ∧ w'.Supplied (turns.drop n) := by
  induction wanted generalizing w turns stats n with
  | zero =>
      rw [Nat.zero_min] at hn
      subst hn
      refine ⟨w, [], ?_, Controller.Served.nil, h⟩
      rw [Controller.turnOf_over (Or.inl rfl)]
      rfl
  | succ wanted ih =>
      by_cases hroom : w.controller.store.countInGroup g.name < g.maxOnline.toNat
      · obtain ⟨n', rfl⟩ : ∃ n', n = n' + 1 := ⟨n - 1, by omega⟩
        cases turns with
        | nil =>
            cases hturns
        | cons turn turns =>
            have hsize : g.maxOnline.toNat < UInt32.size := g.maxOnline.toNat_lt_size
            rcases goAlone_grows (p := p) (h.advancePass p (.waiting ⟨g, wanted, rest, stats⟩)) hechoes
              (Function.update_self _ _ _) (Function.update_self _ _ _) hgroup
              (Nat.lt_trans hroom hsize) with
              ⟨w', s, hgo, hadvanced, hfresh, hsupplied⟩
            have hgrown : w.controller.Grown w'.controller [s] := hadvanced
            have hcount : w'.controller.store.countInGroup g.name =
                w.controller.store.countInGroup g.name + 1 := by
              rw [hgrown.countInGroup, List.filter_singleton, hfresh.group, beq_self_eq_true]
              rfl
            have hgroup' : w'.controller.store.database.findGroup g.name = .ok (some g) :=
              (hgrown.findGroup g.name).trans hgroup
            -- One start less is wanted and one place less is free, so one less is to come.
            rcases ih { stats with started := stats.started + 1 } hsupplied hgroup'
              (by omega) (Nat.le_of_succ_le_succ hturns) with
              ⟨w'', added, hrest, hserved, hsupplied'⟩
            refine ⟨w'', s :: added, ?_, hserved.cons hgrown hfresh, hsupplied'⟩
            rw [Controller.turnOf_start hroom, List.foldl_cons, hgo]
            refine hrest.trans ?_
            rw [List.drop_succ_cons, Nat.add_assoc, Nat.add_comm 1 n']
      · rw [Nat.sub_eq_zero_of_le (Nat.le_of_not_lt hroom), Nat.min_zero] at hn
        subst hn
        refine ⟨w, [], ?_, Controller.Served.nil, h⟩
        rw [Controller.turnOf_over (Or.inr (Nat.le_of_not_lt hroom))]
        rfl

end Fleet

/-!
# All turns
-/

namespace Controller

variable {c c' c'' : Controller} {added more : List Server} {g other : Group} {n : Nat}
  {gs : List Group} {stats : PassStats}

theorem wantedIn_eq (c : Controller) (g : Group) :
    c.wantedIn g = g.demand
      (((c.store.index.filter fun s => s.group == g.name).filter fun s => !s.state.isBusy).map
        Server.load) := by
  apply g.demand_perm
  exact ((List.mergeSort_perm _ _).filter _).map _

theorem Grown.wantedIn (h : c.Grown c' added)
    (hfresh : ∀ s ∈ added, s.group = g.name → s.FreshIn g) :
    ∃ loads, c.wantedIn g = g.demand loads ∧ c'.wantedIn g = g.demand
      (loads ++ List.replicate (added.filter fun s => s.group == g.name).length g.freshLoad) := by
  have hin : ∀ s ∈ added.filter fun s => s.group == g.name, s.FreshIn g := by
    intro s hs
    rw [List.mem_filter, beq_iff_eq] at hs
    exact hfresh s hs.left hs.right
  have hidle : ((added.filter fun s => s.group == g.name).filter fun s => !s.state.isBusy) =
      added.filter fun s => s.group == g.name :=
    List.filter_eq_self.mpr fun s hs => by rw [(hin s hs).idle, Bool.not_false]
  have hloads : (added.filter fun s => s.group == g.name).map Server.load =
      List.replicate (added.filter fun s => s.group == g.name).length g.freshLoad := by
    rw [List.eq_replicate_iff, List.length_map]
    refine ⟨rfl, ?_⟩
    intro load hload
    rcases List.mem_map.mp hload with ⟨s, hs, rfl⟩
    exact (hin s hs).load
  refine ⟨_, c.wantedIn_eq g, ?_⟩
  rw [c'.wantedIn_eq, h.index, List.filter_append, List.filter_append, List.map_append, hidle, hloads]

theorem Served.need_other (h : c.Served c' g n added) (hne : other.name ≠ g.name) :
    c'.need other = c.need other := by
  have hnone : ∀ s ∈ added, s.group = other.name → s.FreshIn other := by
    intro s hs hsame
    exact absurd (hsame.symm.trans (h.fresh s hs).group) hne
  rcases h.grown.wantedIn hnone with ⟨loads, hbefore, hafter⟩
  rw [h.filter_other hne, List.length_nil, List.replicate_zero, List.append_nil, ← hbefore] at hafter
  rw [need, need, hafter, h.grown.countInGroup, h.filter_other hne, List.length_nil, Nat.add_zero]

structure Provided (c c' : Controller) (gs : List Group) (added : List Server) : Prop where
  grown : c.Grown c' added
  fresh : ∀ s ∈ added, ∃ g ∈ gs, s.FreshIn g
  started : ∀ g ∈ gs, (added.filter fun s => s.group == g.name).length = c.need g

theorem Provided.nil : c.Provided c [] [] where
  grown := .refl c
  fresh := fun _ hs => (List.not_mem_nil hs).elim
  started := fun _ hg => (List.not_mem_nil hg).elim

theorem Provided.cons (h : c'.Provided c'' gs more) (hserved : c.Served c' g (c.need g) added)
    (hnames : g.name ∉ gs.map Group.name) : c.Provided c'' (g :: gs) (added ++ more) := by
  have hne : ∀ other ∈ gs, other.name ≠ g.name := by
    intro other hother hsame
    exact hnames (hsame ▸ List.mem_map_of_mem hother)
  constructor
  case grown =>
    exact hserved.grown.trans h.grown
  case fresh =>
    intro s hs
    rcases List.mem_append.mp hs with hs | hs
    · exact ⟨g, List.mem_cons_self, hserved.fresh s hs⟩
    · rcases h.fresh s hs with ⟨other, hother, hfresh⟩
      exact ⟨other, List.mem_cons_of_mem g hother, hfresh⟩
  case started =>
    intro other hother
    rw [List.filter_append, List.length_append]
    rcases List.mem_cons.mp hother with rfl | hother
    · have hnone : (more.filter fun s => s.group == other.name) = [] := by
        rw [List.filter_eq_nil_iff]
        intro s hs hsame
        rcases h.fresh s hs with ⟨own, hown, hfresh⟩
        exact hne own hown (hfresh.group.symm.trans (beq_iff_eq.mp hsame))
      rw [hserved.filter_self, hserved.length, hnone, List.length_nil, Nat.add_zero]
    · rw [hserved.filter_other (hne other hother), List.length_nil, Nat.zero_add, h.started other hother,
        hserved.need_other (hne other hother)]

theorem Provided.settled (h : c.Provided c' gs added) (hnames : (gs.map Group.name).Nodup)
    (hg : g ∈ gs) (hbounded : g.Bounded)
    (hratio : g.policy = .playerRatio → 0 < g.newInstanceRatio.toNat) :
    c'.wantedIn g = 0 ∨ g.maxOnline.toNat ≤ c'.store.countInGroup g.name := by
  have hfresh : ∀ s ∈ added, s.group = g.name → s.FreshIn g := by
    intro s hs hgroup
    rcases h.fresh s hs with ⟨own, hown, hfresh⟩
    rw [List.inj_on_of_nodup_map hnames hg hown (hgroup.symm.trans hfresh.group)]
    exact hfresh
  rcases h.grown.wantedIn hfresh with ⟨loads, hbefore, hafter⟩
  rw [hafter, h.grown.countInGroup, h.started g hg, need, hbefore]
  exact Group.demand_append hbounded hratio loads _

theorem passGroups_settled
    (h : ∀ g ∈ gs, c.wantedIn g = 0 ∨ g.maxOnline.toNat ≤ c.store.countInGroup g.name) :
    c.passGroups stats gs = .done { stats with processed := stats.processed + gs.length } := by
  induction gs generalizing stats with
  | nil =>
      rfl
  | cons g rest ih =>
      have hover : c.passGroups stats (g :: rest) = c.turnOf g (c.wantedIn g) rest stats := rfl
      have hrest : ∀ g ∈ rest, c.wantedIn g = 0 ∨ g.maxOnline.toNat ≤ c.store.countInGroup g.name :=
        fun other hother => h other (List.mem_cons_of_mem g hother)
      rw [hover, turnOf_over (h g List.mem_cons_self), ih hrest, List.length_cons, Nat.add_assoc,
        Nat.add_comm 1]

end Controller

namespace Fleet

variable {w w' : Fleet} {p : Nat} {turns : List (Env × Env)} {g : Group} {answer : AgentCall → Reply}

theorem pass_grows (hechoes : Echoes answer) {gs : List Group} (stats : PassStats)
    (h : w.Supplied turns) (hnames : (gs.map Group.name).Nodup)
    (hgroups : ∀ g ∈ gs, w.controller.store.database.findGroup g.name = .ok (some g))
    (hturns : (gs.map w.controller.need).sum ≤ turns.length) :
    ∃ (w' : Fleet) (added : List Server),
      turns.foldl (goAlone answer p) (w.advancePass p (w.controller.passGroups stats gs)) =
        w'.advancePass p (.done ⟨stats.processed + gs.length, stats.failed,
          stats.started + (gs.map w.controller.need).sum⟩) ∧
        w.controller.Provided w'.controller gs added := by
  induction gs generalizing w turns stats with
  | nil =>
      refine ⟨w, [], ?_, Controller.Provided.nil⟩
      exact goAlone_of_ended (Function.update_self _ _ _)
  | cons g rest ih =>
      rw [List.map_cons, List.nodup_cons] at hnames
      rw [List.map_cons, List.sum_cons] at hturns ⊢
      have hturn : w.controller.passGroups stats (g :: rest) =
          w.controller.turnOf g (w.controller.wantedIn g) rest stats := rfl
      rcases turn_grows (p := p) hechoes (w.controller.wantedIn g) rest stats h
        (hgroups g List.mem_cons_self) (n := w.controller.need g) rfl (by omega) with
        ⟨w₁, added, hfirst, hserved, hsupplied⟩
      -- The servers of this group stand in no other, so what the rest needs is as before its turn.
      have hneeds : rest.map w₁.controller.need = rest.map w.controller.need := by
        apply List.map_congr_left
        intro other hother
        apply hserved.need_other
        intro hsame
        exact hnames.left (hsame ▸ List.mem_map_of_mem hother)
      have hgroups' : ∀ g ∈ rest, w₁.controller.store.database.findGroup g.name = .ok (some g) := by
        intro other hother
        rw [hserved.grown.findGroup]
        exact hgroups other (List.mem_cons_of_mem g hother)
      have hleft : (rest.map w₁.controller.need).sum ≤ (turns.drop (w.controller.need g)).length := by
        rw [hneeds, List.length_drop]
        omega
      rcases ih _ hsupplied hnames.right hgroups' hleft with ⟨w', more, hlater, hprovided⟩
      refine ⟨w', added ++ more, ?_, hprovided.cons hserved hnames.left⟩
      rw [hturn, hfirst, hlater, hneeds, List.length_cons]
      simp only [Nat.add_assoc, Nat.add_comm 1]

/-- A pass begins in any state of the fleet, over groups that are valid, and has the fleet to itself while
launches succeed and no write is refused.  It starts in each group as many servers as its policy asks
for, but no more than its cap leaves room for.  Then each group asks for no more or is at its cap, and
another pass starts nothing. -/
theorem pass_reaches_fixpoint (settings : ControlSettings) (before : List Move) {p : Nat}
    {groups : List Group} {turns : List (Env × Env)} {answer : AgentCall → Reply}
    (hordered : (run settings before).passes p = some .ordered)
    (hgroups : (run settings before).controller.store.database.loadGroups = .ok groups)
    (hfiled : GroupRow.Filed (run settings before).controller.store.database.groups)
    (hvalid : ∀ g ∈ groups, g.validate = .ok ())
    (hratio : ∀ g ∈ groups, g.policy = .playerRatio → 0 < g.newInstanceRatio.toNat)
    (hhosts : (run settings before).controller.hosts ≠ [])
    (hsaves : ∀ key, (run settings before).controller.store.database.refusal (.saveServer key) = none)
    (hechoes : Echoes answer) (hnodup : (turns.map fun turn => turn.1.serverId).Nodup)
    (hfresh : ∀ turn ∈ turns, turn.1.serverId ∉ (run settings before).placed.map Identity.id)
    (hturns : (groups.map (run settings before).controller.need).sum ≤ turns.length) :
    let w := run settings before
    let w' := passAlone answer p turns w
    let again := (w'.step .orderPass).step (.goPass w'.next)
    w'.passes p = some (.ended (.ok ⟨groups.length, 0, (groups.map w.controller.need).sum⟩)) ∧
      (∃ added, w.controller.Provided w'.controller groups added) ∧
      (∀ g ∈ groups,
        w'.controller.wantedIn g = 0 ∨ g.maxOnline.toNat ≤ w'.controller.store.countInGroup g.name) ∧
      again.passes w'.next = some (.ended (.ok ⟨groups.length, 0, 0⟩)) ∧
      again.controller = w'.controller ∧ again.tasks = w'.tasks := by
  intro w w' again
  have hnames : (groups.map Group.name).Nodup := Database.nodup_names hfiled hgroups
  have hsupplied : w.Supplied turns :=
    ⟨(sound_run settings before).books, hhosts, hsaves, hnodup, hfresh⟩
  rcases pass_grows (p := p) hechoes ⟨0, 0, 0⟩ hsupplied hnames
    (fun g hg => Database.findGroup_of_mem hfiled hgroups hg) hturns with
    ⟨ended, added, hpass, hprovided⟩
  have hended : w' =
      ended.advancePass p (.done ⟨groups.length, 0, (groups.map w.controller.need).sum⟩) := by
    rw [← goPass_of_ordered hordered hgroups, Nat.zero_add, Nat.zero_add] at hpass
    exact hpass
  have hcontroller : w'.controller = ended.controller := by
    rw [hended]
    rfl
  rw [← hcontroller] at hprovided
  have hsettled : ∀ g ∈ groups,
      w'.controller.wantedIn g = 0 ∨ g.maxOnline.toNat ≤ w'.controller.store.countInGroup g.name :=
    fun g hg => hprovided.settled hnames hg (Group.bounded_of_validate (hvalid g hg)) (hratio g hg)
  have hagain : again = (w'.step .orderPass).advancePass w'.next (.done ⟨groups.length, 0, 0⟩) := by
    have hloads : w'.controller.store.database.loadGroups = .ok groups :=
      hprovided.grown.loadGroups.trans hgroups
    have hgo : again = (w'.step .orderPass).advancePass w'.next
        (w'.controller.passGroups ⟨0, 0, 0⟩ groups) :=
      goPass_of_ordered (Function.update_self _ _ _) hloads
    rw [hgo, Controller.passGroups_settled hsettled, Nat.zero_add]
  refine ⟨?_, ⟨added, hprovided⟩, hsettled, ?_, ?_, ?_⟩
  · rw [hended]
    exact Function.update_self _ _ _
  · rw [hagain]
    exact Function.update_self _ _ _
  · rw [hagain]
    rfl
  · rw [hagain]
    rfl

namespace Lobby

open Overlap

def ready : AgentCall → Reply
  | .launch _ _ s => ⟨.ok { s with state := .online }, noon⟩
  | .terminate _ s => ⟨.ok s, noon⟩
  | .reattach _ s => ⟨.ok s, noon⟩

def oneTurn : List (Env × Env) := [(⟨noon, server⟩, ⟨noon, server⟩)]

theorem echoes_ready : Echoes ready :=
  fun _ _ s => ⟨{ s with state := .online }, rfl, rfl, rfl, rfl⟩

theorem need_before : (run settings before).controller.need lobby = 1 := by
  rw [Controller.need, Controller.wantedIn_eq]
  decide +kernel

end Lobby

open Lobby Overlap in
theorem pass_reaches_fixpoint_lobby :
    let w' := passAlone ready 1 oneTurn (run settings before)
    (run settings before).controller.need lobby = 1 ∧
      w'.passes 1 =
        some (.ended (.ok ⟨1, 0, ([lobby].map (run settings before).controller.need).sum⟩)) ∧
      (∃ added, (run settings before).controller.Provided w'.controller [lobby] added) ∧
      ∀ g ∈ [lobby],
        w'.controller.wantedIn g = 0 ∨ g.maxOnline.toNat ≤ w'.controller.store.countInGroup g.name := by
  have hvalid : ∀ g ∈ [lobby], g.validate = .ok () := by
    intro g hg
    rw [List.mem_singleton.mp hg]
    decide +kernel
  have hratio : ∀ g ∈ [lobby], g.policy = .playerRatio → 0 < g.newInstanceRatio.toNat := by
    intro g hg _
    rw [List.mem_singleton.mp hg]
    decide
  have hhosts : (run settings before).controller.hosts ≠ [] := by
    decide +kernel
  have hfresh : ∀ turn ∈ oneTurn, turn.1.serverId ∉ (run settings before).placed.map Identity.id := by
    decide +kernel
  have hturns : ([lobby].map (run settings before).controller.need).sum ≤ oneTurn.length := by
    rw [List.map_singleton, List.sum_singleton, need_before]
    exact Nat.le_refl 1
  have hsaves : ∀ key,
      (run settings before).controller.store.database.refusal (.saveServer key) = none := by
    intro key
    with_unfolding_all rfl
  have hnodup : (oneTurn.map fun turn => turn.1.serverId).Nodup := List.nodup_singleton server
  have hordered : (run settings before).passes 1 = some .ordered := rfl
  have hpass := pass_reaches_fixpoint settings before hordered loads_before filed_before hvalid hratio
    hhosts hsaves echoes_ready hnodup hfresh hturns
  exact ⟨need_before, hpass.left, hpass.right.left, hpass.right.right.left⟩

end Fleet
end ServerFleet
