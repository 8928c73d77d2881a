import ServerFleet.Proofs.Fleet.Departures
import ServerFleet.Proofs.Fleet.Hosts
import ServerFleet.Proofs.Scaling.Search

/-!
# Balanced placement

A server is placed on the first of the hosts that have the fewest servers, and a record
counts from the moment at which it is placed.  So as long as no record goes away, the
hosts take the servers in turn, in the order in which they have first registered.
-/

namespace ServerFleet

/-!
# Shares
-/

section

variable {n i k : Nat}

theorem divUp_eq_iff {n d x : Nat} (hd : 0 < d) : divUp n d = x ↔ d * x < n + d ∧ n ≤ d * x := by
  rw [divUp, Nat.div_eq_iff hd, Nat.mul_comm]
  omega

theorem divUp_sub (hi : i < k) : divUp (n - i) k = n / k + if i < n % k then 1 else 0 := by
  have hk : 0 < k := Nat.zero_lt_of_lt hi
  have hn : k * (n / k) + n % k = n := Nat.div_add_mod n k
  have hrest : n % k < k := Nat.mod_lt n hk
  rw [divUp_eq_iff hk, Nat.mul_add]
  split
  next =>
    omega
  next =>
    omega

theorem divUp_succ_sub (hi : i < k) :
    divUp (n + 1 - i) k = divUp (n - i) k + if i = n % k then 1 else 0 := by
  have hk : 0 < k := Nat.zero_lt_of_lt hi
  have hn : k * (n / k) + n % k = n := Nat.div_add_mod n k
  have hrest : n % k < k := Nat.mod_lt n hk
  rw [divUp_eq_iff hk, divUp_sub hi, Nat.mul_add, Nat.mul_add]
  rcases Nat.lt_trichotomy i (n % k) with hearlier | hturn | hlater
  · rw [if_pos hearlier, if_neg (Nat.ne_of_lt hearlier)]
    omega
  · rw [if_neg (Nat.not_lt.mpr hturn.ge), if_pos hturn]
    omega
  · rw [if_neg (Nat.lt_asymm hlater), if_neg (Nat.ne_of_gt hlater)]
    omega

end

/-!
# Taking turns
-/

theorem Controller.leastLoaded_eq_some {count : HostId → Nat} {hosts : List Host} {host : Host}
    (h : leastLoaded count hosts = some host) :
    ∃ i, hosts[i]? = some host ∧ ∀ (j : Nat) (other : Host), hosts[j]? = some other →
      count host.id ≤ count other.id ∧ (j < i → count host.id < count other.id) := by
  induction hosts generalizing host with
  | nil =>
      cases h
  | cons first rest ih =>
      rw [leastLoaded] at h
      split at h
      next hnone =>
        cases h
        refine ⟨0, rfl, ?_⟩
        intro j other hother
        cases j with
        | zero =>
            cases hother
            exact ⟨Nat.le_refl _, fun hj => absurd hj (Nat.lt_irrefl 0)⟩
        | succ j =>
            have hmem : other ∈ rest := List.mem_of_getElem? hother
            rcases exists_leastLoaded count (List.ne_nil_of_mem hmem) with ⟨best, hbest⟩
            rw [hnone] at hbest
            cases hbest
      next best hbest =>
        rcases ih hbest with ⟨i, hi, hleast⟩
        split at h
        next hle =>
          cases h
          refine ⟨0, rfl, ?_⟩
          intro j other hother
          refine ⟨?_, fun hj => absurd hj (Nat.not_lt_zero j)⟩
          cases j with
          | zero =>
              cases hother
              exact Nat.le_refl _
          | succ j =>
              exact Nat.le_trans hle (hleast j other hother).left
        next hgreater =>
          cases h
          refine ⟨i + 1, hi, ?_⟩
          intro j other hother
          cases j with
          | zero =>
              cases hother
              exact ⟨Nat.le_of_not_le hgreater, fun _ => Nat.lt_of_not_le hgreater⟩
          | succ j =>
              have hother := hleast j other hother
              exact ⟨hother.left, fun hj => hother.right (Nat.lt_of_succ_lt_succ hj)⟩

def Identity.isOn (host : HostId) (a : Identity) : Bool :=
  a.hostId = host

def Balanced (hosts : List HostId) (placed : List Identity) : Prop :=
  ∀ i host, hosts[i]? = some host →
    placed.countP (Identity.isOn host) = divUp (placed.length - i) hosts.length

theorem balanced_nil (hosts : List HostId) : Balanced hosts [] := by
  intro i host hhost
  have hi : i < hosts.length := (List.getElem?_eq_some_iff.mp hhost).1
  rw [List.countP_nil, List.length_nil, divUp_sub hi, Nat.zero_div, Nat.zero_mod,
    if_neg (Nat.not_lt_zero i)]

namespace Balanced

variable {placed : List Identity}

theorem turn {hosts : List Host} (hbalanced : Balanced (hosts.map Host.id) placed) {host : Host}
    (h : Controller.leastLoaded (fun id => placed.countP (Identity.isOn id)) hosts = some host) :
    hosts[placed.length % hosts.length]? = some host := by
  rcases Controller.leastLoaded_eq_some h with ⟨i, hi, hleast⟩
  have hcount {j : Nat} {other : Host} (hother : hosts[j]? = some other) :
      placed.countP (Identity.isOn other.id) =
        placed.length / hosts.length + if j < placed.length % hosts.length then 1 else 0 := by
    have hj : j < hosts.length := (List.getElem?_eq_some_iff.mp hother).1
    rw [hbalanced j other.id (by rw [List.getElem?_map, hother]; rfl), List.length_map, divUp_sub hj]
  have hpositive : 0 < hosts.length := Nat.zero_lt_of_lt (List.getElem?_eq_some_iff.mp hi).1
  have hnext := List.getElem?_eq_getElem (Nat.mod_lt placed.length hpositive)
  have hturn := hleast _ _ hnext
  simp only [hcount hi, hcount hnext, Nat.lt_irrefl, if_false, Nat.add_zero] at hturn
  rcases Nat.lt_trichotomy i (placed.length % hosts.length) with hearlier | hsame | hlater
  · rw [if_pos hearlier] at hturn
    exact absurd hturn.left (Nat.not_succ_le_self _)
  · rw [← hsame]
    exact hi
  · rw [if_neg (Nat.lt_asymm hlater)] at hturn
    exact absurd (hturn.right hlater) (Nat.lt_irrefl _)

theorem cons {hosts : List HostId} (hbalanced : Balanced hosts placed) (hnodup : hosts.Nodup)
    {a : Identity} (hturn : hosts[placed.length % hosts.length]? = some a.hostId) :
    Balanced hosts (a :: placed) := by
  intro i host hhost
  have hi : i < hosts.length := (List.getElem?_eq_some_iff.mp hhost).1
  have hmine : a.isOn host ↔ i = placed.length % hosts.length := by
    rw [Identity.isOn, decide_eq_true_iff]
    constructor
    · intro hsame
      rw [← hsame, ← hturn] at hhost
      exact (List.getElem?_inj hi hnodup).mp hhost
    · intro hsame
      rw [hsame, hturn] at hhost
      exact Option.some.inj hhost
  rw [List.countP_cons, hbalanced i host hhost, List.length_cons, divUp_succ_sub hi]
  simp only [hmine]

end Balanced

namespace Fleet

variable {w w' : Fleet} {move : Move} {now : Time.Instant} {es : List Edit}

/-!
# Records that stay
-/

def Complete (w : Fleet) : Prop :=
  ∀ id ∈ w.placed.map Identity.id, id ∈ Store.ids w.controller.store.index

/-- A task is no start that has failed, no stop that has stopped a server and no registration that has
purged one. -/
def Task.keeps : Task → Bool
  | ⟨.start _ _, .ended (.server (.error _))⟩ => false
  | ⟨.stop _ _, .ended (.server (.ok _))⟩ => false
  | ⟨.attach _, .ended (.attached _ report)⟩ => report.purged.isEmpty
  | _ => true

theorem Task.Took.not_keeps {task : Task} {id : ServerId} (h : task.Took id) : task.keeps = false := by
  rcases h.ended with ⟨outcome, hended⟩
  cases task with
  | mk order stage =>
      cases hended
      cases order with
      | start group cause =>
          exact h.elim
      | stop stopped cause =>
          cases outcome with
          | attached host report =>
              exact h.elim
          | server result =>
              cases result with
              | error e =>
                  exact h.elim
              | ok s =>
                  rfl
      | attach host =>
          cases outcome with
          | server result =>
              exact h.elim
          | attached host' report =>
              exact List.isEmpty_eq_false_iff_exists_mem.mpr ⟨id, h⟩

theorem Task.ended_of_not_keeps {task : Task} (h : task.keeps = false) :
    ∃ outcome, task.stage = .ended outcome := by
  cases task with
  | mk order stage =>
      cases stage with
      | ended outcome =>
          exact ⟨outcome, rfl⟩
      | ordered =>
          cases order <;> cases h
      | asking job =>
          cases order <;> cases h

theorem tasks_advance_of_ended {t u : Nat} {task : Task} {outcome : Outcome} {order : Order}
    {stage : Stage} (htask : w.tasks t = some task) (hended : task.stage = .ended outcome)
    (hold : w.tasks u = some ⟨order, stage⟩) (hrunning : stage ≠ .ended outcome)
    (step : Controller × Progress Job Outcome) : (w.advance u order step).tasks t = some task := by
  rw [tasks_advance, Function.update_of_ne]
  · exact htask
  · intro htu
    rw [← htu, htask] at hold
    cases hold
    exact hrunning hended

theorem Goes.tasks_of_ended (hgoes : w.Goes move now es w')
    (hlasting : ∀ settings, move ≠ .restart settings) {t : Nat} {task : Task} {outcome : Outcome}
    (htask : w.tasks t = some task) (hended : task.stage = .ended outcome) :
    w'.tasks t = some task := by
  cases hgoes with
  | still _ _ htasks =>
      rcases htasks t with hsame | ⟨hnone, _⟩
      · exact hsame.trans htask
      · rw [htask] at hnone
        cases hnone
  | weather | override _ _ _ =>
      exact htask
  | restart =>
      exact absurd rfl (hlasting _)
  | begin hold _ _ _ _ =>
      exact tasks_advance_of_ended htask hended hold Stage.noConfusion _
  | resume hold _ _ _ _ =>
      exact tasks_advance_of_ended htask hended hold Stage.noConfusion _

theorem not_keeps_of_withdrawn {t : Nat} {order : Order} {work : StartWork} {e : ControlError}
    (h : w.Sound) (hold : w.tasks t = some ⟨order, .asking (.start work)⟩) :
    Task.keeps ⟨order, .ended (.server (.error e))⟩ = false := by
  have hadmits := h.admits t _ hold
  cases order with
  | start group cause =>
      rfl
  | stop id cause =>
      rcases hadmits with ⟨k, hjob, _⟩
      cases hjob
  | attach host =>
      rcases hadmits with ⟨sweep, hjob, _⟩
      cases hjob

theorem Goes.not_keeps_of_gone (hgoes : w.Goes move now es w') (h : w.Sound) {e : Edit} (he : e ∈ es)
    {id : ServerId} (hgone : e.gone? = some id) :
    ∃ t task, w'.tasks t = some task ∧ task.keeps = false := by
  cases hgoes with
  | still _ _ _ | weather | restart =>
      cases he
  | begin _ _ _ hbegins _ =>
      rcases begins_only_place hbegins he with ⟨s, rfl, _⟩
      cases hgone
  | override _ _ _ =>
      cases List.mem_singleton.mp he
      cases hgone
  | @resume t order job env replies _ c' p hold _ hresume hresumes hedited =>
      refine ⟨t, ⟨order, p.stage⟩, Function.update_self _ _ _, ?_⟩
      have hplaced : (w.advance t order (c', p)).placed = w.placed := by
        rw [advance, resumes_placed hresumes, List.nil_append]
      have htells : Task.Tells (w.advance t order (c', p)).books es ⟨order, p.stage⟩ :=
        resumes_tells hresumes h.books (h.fits t _ hold) hedited hplaced (h.admits t _ hold)
      cases hresumes with
      | committed _ | failedKept _ _ | undoneKept _ _ =>
          cases List.mem_singleton.mp he
          cases hgone
      | uncommitted _ _ | stopFailed _ =>
          cases he
      | failed _ _ | undone _ _ =>
          exact not_keeps_of_withdrawn h hold
      | stopped _ _ =>
          exact (htells.removed _ _ List.mem_cons_self).not_keeps
      | swept hsweeps =>
          rcases hsweeps.edits e he with ⟨m, rfl⟩ | ⟨r, rfl⟩
          · cases hgone
          · exact (htells.removed _ _ he).not_keeps

theorem Goes.placed_cases (hgoes : w.Goes move now es w') :
    w'.placed = w.placed ∨ ∃ s host, w.controller.placement? = some host ∧ s.hostId = host.id ∧
      w'.placed = s.identity :: w.placed ∧ es = [.place s] := by
  cases hgoes with
  | still _ hplaced _ =>
      exact Or.inl hplaced
  | weather | restart | override _ _ _ =>
      exact Or.inl rfl
  | begin _ _ _ hbegins _ =>
      cases hbegins with
      | placed _ hhost _ =>
          exact Or.inr ⟨_, _, hhost, rfl, rfl, rfl⟩
      | startRefused _ | stopRefused _ | stopping _ _ _ | attached | sweeping =>
          exact Or.inl rfl
  | resume _ _ _ hresumes _ =>
      refine Or.inl ?_
      rw [advance, resumes_placed hresumes, List.nil_append]

theorem Goes.complete (hgoes : w.Goes move now es w') (h : w.Sound) (hcomplete : w.Complete)
    (hkeeps : ∀ t task, w'.tasks t = some task → task.keeps = true) : w'.Complete := by
  intro id hid
  by_cases hplaced : id ∈ w.placed.map Identity.id
  · rcases Store.exists_get?_iff.mpr (hcomplete id hplaced) with ⟨s, hs⟩
    have hsame : s.id = id := (Store.mem_of_get? hs).right
    subst hsame
    by_contra habsent
    rcases hgoes.exists_gone h hs (Store.get?_eq_none_iff.mpr habsent) with ⟨e, he, hgone⟩
    rcases hgoes.not_keeps_of_gone h he hgone with ⟨t, task, htask, hlost⟩
    rw [hkeeps t task htask] at hlost
    cases hlost
  · rcases hgoes.placed_cases with hsame | ⟨s, host, _, _, hnew, rfl⟩
    · rw [hsame] at hid
      exact absurd hid hplaced
    · rw [hnew, List.map_cons] at hid
      rcases List.mem_cons.mp hid with rfl | hold
      · exact Store.exists_get?_iff.mp ⟨s, hgoes.get?_of_mem h List.mem_cons_self⟩
      · exact absurd hold hplaced

theorem complete_run (settings : ControlSettings) {moves : List Move}
    (hlasting : ∀ move ∈ moves, ∀ settings', move ≠ .restart settings')
    (hkeeps : ∀ t task, (run settings moves).tasks t = some task → task.keeps = true) :
    (run settings moves).Complete := by
  induction moves using List.reverseRecOn with
  | nil =>
      intro id hid
      cases hid
  | append_singleton moves move ih =>
      have h := sound_run settings moves
      rcases h.goes move with ⟨now, es, hgoes⟩
      rw [run_snoc] at hkeeps ⊢
      refine hgoes.complete h (ih ?_ ?_) hkeeps
      · intro earlier hmem
        exact hlasting earlier (List.mem_append_left _ hmem)
      -- What a task has come to stays to be seen, so none has lost a record before either.
      · intro t task htask
        rw [← Bool.not_eq_false]
        intro hlost
        rcases Task.ended_of_not_keeps hlost with ⟨outcome, hended⟩
        have hstill := hgoes.tasks_of_ended
          (hlasting move (List.mem_append_right _ List.mem_cons_self)) htask hended
        rw [hkeeps t task hstill] at hlost
        cases hlost

/-!
# The balance of a run
-/

theorem Sound.perm_placed (h : w.Sound) (hcomplete : w.Complete) :
    (w.controller.store.index.map Server.identity).Perm w.placed := by
  have hids : (w.controller.store.index.map Server.identity).map Identity.id =
      Store.ids w.controller.store.index :=
    List.map_map ..
  have hnodup : ((w.controller.store.index.map Server.identity).map Identity.id).Nodup := by
    rw [hids]
    exact h.books.store.nodup
  have hunique : w.placed.Nodup := .of_map _ h.books.unique
  rw [List.perm_ext_iff_of_nodup (.of_map _ hnodup) hunique]
  intro a
  constructor
  · intro ha
    rcases List.mem_map.mp ha with ⟨s, hs, rfl⟩
    exact h.books.placed s hs
  · intro ha
    rcases List.mem_map.mp (hcomplete a.id (List.mem_map.mpr ⟨a, ha, rfl⟩)) with ⟨s, hs, hid⟩
    have hsame : s.identity = a := h.books.identity_eq (h.books.placed s hs) ha hid
    exact List.mem_map.mpr ⟨s, hs, hsame⟩

theorem Sound.countOnHost_eq (h : w.Sound) (hcomplete : w.Complete) (host : HostId) :
    w.controller.store.countOnHost host = w.placed.countP (Identity.isOn host) := by
  rw [← (h.perm_placed hcomplete).countP_eq, List.countP_map, Store.countOnHost,
    ← List.countP_eq_length_filter]
  rfl

theorem Goes.balanced (hgoes : w.Goes move now es w') (h : w.Sound) (hcomplete : w.Complete)
    (hnodup : (w.controller.hosts.map Host.id).Nodup)
    (hbalanced : Balanced (w.controller.hosts.map Host.id) w.placed) :
    Balanced (w.controller.hosts.map Host.id) w'.placed := by
  rcases hgoes.placed_cases with hsame | ⟨s, host, hhost, hid, hnew, _⟩
  · rw [hsame]
    exact hbalanced
  · have hcount : w.controller.store.countOnHost = fun id => w.placed.countP (Identity.isOn id) :=
      funext (h.countOnHost_eq hcomplete)
    rw [Controller.placement?, hcount] at hhost
    rw [hnew]
    refine hbalanced.cons hnodup ?_
    rw [List.length_map, List.getElem?_map, hbalanced.turn hhost]
    exact congrArg some hid.symm

theorem balanced_run (settings : ControlSettings) {opening moves : List Move} {hosts : List HostId}
    (hempty : (run settings opening).placed = [])
    (hhosts : ∀ earlier later, moves = earlier ++ later →
      (run settings (opening ++ earlier)).controller.hosts.map Host.id = hosts)
    (hcomplete : (run settings (opening ++ moves)).Complete) :
    Balanced hosts (run settings (opening ++ moves)).placed := by
  induction moves using List.reverseRecOn with
  | nil =>
      rw [List.append_nil, hempty]
      exact balanced_nil hosts
  | append_singleton moves move ih =>
      -- What is gone does not come back, so if nothing is missing now, nothing was missing before.
      have hbefore : (run settings (opening ++ moves)).Complete := by
        intro id hplaced
        by_contra habsent
        have hgone := absent_of_run settings (opening ++ moves) [move] hplaced habsent
        have hstill := placed_of_run settings (opening ++ moves) [move] hplaced
        rw [List.append_assoc] at hgone hstill
        exact hgone (hcomplete id hstill)
      have hnow := hhosts moves [move] rfl
      have hnodup := nodup_hosts settings (opening ++ moves)
      have h := sound_run settings (opening ++ moves)
      have hbalanced := ih (fun earlier later hmoves => hhosts earlier (later ++ [move]) (by
        rw [hmoves, List.append_assoc])) hbefore
      rcases h.goes move with ⟨now, es, hgoes⟩
      rw [← List.append_assoc, run_snoc, ← hnow]
      exact hgoes.balanced h hbefore hnodup (hnow ▸ hbalanced)

structure SharedOut (w : Fleet) (hosts : List HostId) : Prop where
  order : w.controller.hosts.map Host.id = hosts
  /-- Every server that was ever placed counts, also while it is launching. -/
  stored : (w.controller.store.index.map Server.identity).Perm w.placed
  count : ∀ i host, hosts[i]? = some host →
    w.controller.store.countOnHost host = divUp (w.placed.length - i) hosts.length

/-- If the hosts were registered before the first server was placed, and no record has gone away since, each
of them has its share of the servers: the first hosts to register get the odd ones. -/
theorem placement_is_balanced (settings : ControlSettings) {opening moves : List Move}
    (hlasting : ∀ move ∈ opening ++ moves, ∀ settings', move ≠ .restart settings')
    (hempty : (run settings opening).placed = [])
    (hregistered : ∀ host ∈ (run settings opening).registrations moves,
      host ∈ (fresh settings).registrations opening)
    (hkeeps : ∀ t task, (run settings (opening ++ moves)).tasks t = some task → task.keeps = true) :
    (run settings (opening ++ moves)).SharedOut (registered settings opening) := by
  have h := sound_run settings (opening ++ moves)
  have hcomplete := complete_run settings hlasting hkeeps
  have hhosts (earlier later : List Move) (hmoves : moves = earlier ++ later) :
      (run settings (opening ++ earlier)).controller.hosts.map Host.id = registered settings opening := by
    rw [hmoves, ← List.append_assoc] at hlasting
    rw [hmoves, registrations_append] at hregistered
    rw [ids_hosts_run settings fun move hmem => hlasting move (List.mem_append_left _ hmem)]
    exact registered_append settings fun host hmem => hregistered host (List.mem_append_left _ hmem)
  constructor
  case order =>
    exact hhosts moves [] (List.append_nil moves).symm
  case stored =>
    exact h.perm_placed hcomplete
  case count =>
    intro i host hhost
    rw [h.countOnHost_eq hcomplete]
    exact balanced_run settings hempty hhosts hcomplete i host hhost

/-!
# Three starts on two hosts

Servers of two groups are started side by side.  The first of them is confirmed, and its
host registers again before the third is placed.
-/

theorem Sound.keeps_of_all (h : w.Sound)
    (hall : ∀ t < w.next, (w.tasks t).all Task.keeps = true) (t : Nat) (task : Task)
    (htask : w.tasks t = some task) : task.keeps = true := by
  have ht : t < w.next := by
    apply Nat.lt_of_not_le
    intro hnext
    rw [h.bound t hnext] at htask
    cases htask
  have hkeeps := hall t ht
  rw [htask] at hkeeps
  exact hkeeps

namespace Turns

open Overlap (settings group host moved server noon answer)

def arena : GroupRow where
  key := "arena"
  body := "[\"arena\",\"game\",512,1024,31000,1,5,10,80]"

def second : Host :=
  ⟨Id.ofNat 2, "10.0.0.2", "http://10.0.0.2:7000"⟩

def opening : List Move := [
  .weather [group, arena] true fun _ => none,
  .order (.attach host),
  .order (.attach second),
  .go 0 ⟨noon, server⟩ [],
  .go 1 ⟨noon, server⟩ []]

def moves : List Move := [
  .order (.start "lobby" .api),
  .order (.start "arena" .api),
  .go 2 ⟨noon, server⟩ [],
  .go 3 ⟨noon, Id.ofNat 8⟩ [],
  .go 2 ⟨noon, Id.ofNat 9⟩ [⟨.ok answer, noon⟩],
  .order (.attach moved),
  .go 4 ⟨noon, Id.ofNat 9⟩ [],
  .order (.start "lobby" .api),
  .go 5 ⟨noon, Id.ofNat 9⟩ []]

theorem lasting : ∀ move ∈ opening ++ moves, ∀ settings', move ≠ .restart settings' := by
  simp [opening, moves]

theorem empty : (run settings opening).placed = [] := by
  decide +kernel

theorem known : ∀ id ∈ (run settings opening).registrations moves,
    id ∈ (fresh settings).registrations opening := by
  decide +kernel

theorem keeps (t : Nat) (task : Task) :
    (run settings (opening ++ moves)).tasks t = some task → task.keeps = true := by
  refine (sound_run settings (opening ++ moves)).keeps_of_all ?_ t task
  decide +kernel

end Turns

open Overlap Turns in
theorem placement_is_balanced_turns :
    (∀ move ∈ Turns.opening ++ Turns.moves, ∀ settings', move ≠ .restart settings') ∧
      (run settings opening).placed = [] ∧
      (∀ id ∈ (run settings opening).registrations Turns.moves,
        id ∈ (fresh settings).registrations opening) ∧
      (∀ t task, (run settings (opening ++ Turns.moves)).tasks t = some task → task.keeps = true) ∧
      (run settings (opening ++ Turns.moves)).controller.store.launching = [Id.ofNat 9, Id.ofNat 8] ∧
      (run settings (opening ++ Turns.moves)).controller.store.countOnHost host.id = 2 ∧
      (run settings (opening ++ Turns.moves)).controller.store.countOnHost second.id = 1 ∧
      (run settings (opening ++ Turns.moves)).SharedOut (registered settings opening) :=
  ⟨Turns.lasting, Turns.empty, Turns.known, Turns.keeps, by decide +kernel, by decide +kernel,
    by decide +kernel,
    placement_is_balanced settings Turns.lasting Turns.empty Turns.known Turns.keeps⟩

end Fleet
end ServerFleet
