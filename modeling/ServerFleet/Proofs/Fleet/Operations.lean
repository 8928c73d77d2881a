import ServerFleet.Control.Job
import ServerFleet.Proofs.Fleet.Books

/-!
# What the controller can do

The steps of orders and jobs, told by the edits they make.  Each relation lists all
ways in which a step can go, and the theorem beside it says that there is no other.
-/

namespace ServerFleet

/-- Errors that can occur.  No write runs into the place of another server, and no commit finds its
record gone. -/
def ControlError.Possible : ControlError → Prop
  | .superseded _ => False
  | .storage .numberTaken => False
  | _ => True

def Outcome.Possible : Outcome → Prop
  | .server (.error e) => e.Possible
  | .server (.ok _) => True
  | .attached _ report => ∀ entry ∈ report.failed, entry.2 ≠ .numberTaken

def Progress.placed : Progress Job Outcome → List Identity
  | .waiting (.start (.launching l)) => [l.provisional.identity]
  | _ => []

theorem Server.identity_of_merge {ours theirs merged : Server} {now : Time.Instant}
    (h : ours.merge theirs now = .ok merged) : merged.identity = ours.identity := by
  rw [Server.merge] at h
  split at h
  next =>
    cases h
  next hid =>
    cases h
    simp [Server.identity, not_not.mp hid]

theorem Server.identity_of_bind {ours merged : Server} {answer : Answer} {now : Time.Instant}
    (h : (answer.bind fun theirs => ours.merge theirs now) = .ok merged) :
    merged.identity = ours.identity := by
  cases answer with
  | error e =>
      cases h
  | ok theirs =>
      exact Server.identity_of_merge h

namespace Controller

inductive Begins (c : Controller) (env : Env) : Order → List Edit → Progress Job Outcome → Prop where
  | startRefused {group : String} {cause : Cause} {e : ControlError} (he : e.Possible) :
      Begins c env (.start group cause) [] (.done (.server (.error e)))
  | placed {group : String} {cause : Cause} {g : Group} {host : Host} {number : Nat}
      (hgroup : c.store.database.findGroup group = .ok (some g))
      (hhost : c.placement? = some host) (hnumber : c.numbers.firstFree? g.name = some number) :
      Begins c env (.start group cause)
        [.place (c.provisional env env.serverId g host number)]
        (.waiting (.start (.launching
          ⟨g, host, c.provisional env env.serverId g host number, cause⟩)))
  | stopRefused {id : ServerId} {cause : Cause} {e : ControlError} (he : e.Possible) :
      Begins c env (.stop id cause) [] (.done (.server (.error e)))
  | stopping {s : Server} {host : Host} {cause : Cause} (hs : s ∈ c.store.index)
      (hlanded : s.id ∉ c.store.launching) (hhost : c.host? s.hostId = some host) :
      Begins c env (.stop s.id cause) [] (.waiting (.stop ⟨host, s, cause⟩))
  | attached {host : Host} :
      Begins c env (.attach host) [] (.done (.attached host .empty))
  | sweeping {host : Host} :
      Begins c env (.attach host) []
        (.waiting (.attach ⟨host, (c.store.byHost host.id).filter fun s =>
          !c.store.isLaunching s.id⟩))

variable {c : Controller} {env : Env} {placed : List Identity}

theorem slot_provisional (c : Controller) (env : Env) (g : Group) (host : Host) {number : Nat}
    (hnumber : number < UInt32.size) :
    (c.provisional env env.serverId g host number).slot = (g.name, number) := by
  simp [provisional, Server.slot, Nat.mod_eq_of_lt hnumber]

/-- A provisional record finds its place free, so only a refusal can keep it from being written; then
nothing has changed. -/
theorem place_cases (h : (c.books placed).Sound) (hfresh : env.serverId ∉ placed.map Identity.id)
    {g : Group} {number : Nat} (hnumber : c.numbers.firstFree? g.name = some number)
    (host : Host) (cause : Cause) :
    (∃ reason, c.store.database.refusal (.saveServer env.serverId.text) = some reason ∧
        c.place env g host cause = (c, .done (.error (.storage (.refused reason))))) ∨
      ∃ c', c.place env g host cause =
          (c', .waiting (.launching ⟨g, host, c.provisional env env.serverId g host number, cause⟩)) ∧
        (Edit.place (c.provisional env env.serverId g host number)).Fits (c.books placed) ∧
        c'.books ((c.provisional env env.serverId g host number).identity :: placed) =
          (c.books placed).edit env.now (.place (c.provisional env env.serverId g host number)) := by
  have hfree := Numbers.free_of_firstFree? hnumber
  have hslot := slot_provisional c env g host hfree.right
  have hidle : env.serverId ∉ c.store.launching := by
    intro hmem
    exact hfresh (h.placed_of_ids (h.launching env.serverId hmem))
  have hstore := h.store.withLaunching (env.serverId :: c.store.launching)
  have hbegin := Store.beginLaunch_of_not_mem hidle
  have hend := Store.endLaunch_beginLaunch hidle
  have htidy : c.numbers.Tidy := h.tidy
  have hrelease := Numbers.release_take htidy hfree.left
  generalize hs : c.provisional env env.serverId g host number = s at *
  have hid : s.id = env.serverId := by
    rw [← hs, provisional]
  have hunoccupied : ¬ c.store.Occupied s := by
    apply h.not_occupied_of_free
    rw [hslot]
    exact hfree.left
  rw [place, Numbers.allocate_of_firstFree? hnumber]
  simp only [hs, hid, hbegin]
  cases hsave : Store.save { c.store with launching := env.serverId :: c.store.launching } s with
  | error e =>
      rcases hstore.save_eq_error_iff.mp hsave with ⟨reason, hrefused, he⟩ | ⟨_, hoccupied, _⟩
      · rw [hid] at hrefused
        refine Or.inl ⟨reason, hrefused, ?_⟩
        rw [hbegin] at hend
        simp only [hrelease, hend, he]
      · exact absurd hoccupied hunoccupied
  | ok store =>
      rcases hstore.save_eq_ok_iff.mp hsave with ⟨_, _, hstored⟩
      have hfits : (Edit.place s).Fits (c.books placed) := by
        rw [Edit.Fits, hid, hslot]
        exact ⟨hfresh, hfree.left⟩
      refine Or.inr ⟨_, rfl, hfits, ?_⟩
      rw [hstored]
      have hgroup : s.group = g.name := congrArg Prod.fst hslot
      have hsame : s.number.toNat = number := congrArg Prod.snd hslot
      simp only [books, Books.edit, Edit.store, Edit.numbers, Edit.event?, Edit.placed, hid, hgroup, hsame]
      rfl

theorem findGroup_possible {db : Database} {name : String} {e : StoreError}
    (h : db.findGroup name = .error e) : (ControlError.storage e).Possible := by
  rw [Database.findGroup] at h
  split at h
  next =>
    cases h
    trivial
  next =>
    split at h
    next =>
      cases h
    next =>
      split at h
      next =>
        cases h
        trivial
      next =>
        cases h

theorem beginStart_cases (h : (c.books placed).Sound)
    (hfresh : env.serverId ∉ placed.map Identity.id) (group : String) (cause : Cause) :
    (∃ e, c.beginStart env group cause = (c, .done (.error e)) ∧ e.Possible) ∨
      ∃ g host number c', c.store.database.findGroup group = .ok (some g) ∧
        c.placement? = some host ∧ c.numbers.firstFree? g.name = some number ∧
        c.beginStart env group cause =
          (c', .waiting (.launching ⟨g, host, c.provisional env env.serverId g host number, cause⟩)) ∧
        (Edit.place (c.provisional env env.serverId g host number)).Fits (c.books placed) ∧
        c'.books ((c.provisional env env.serverId g host number).identity :: placed) =
          (c.books placed).edit env.now (.place (c.provisional env env.serverId g host number)) := by
  cases hgroup : c.store.database.findGroup group with
  | error e =>
      exact Or.inl ⟨_, by rw [beginStart, hgroup], findGroup_possible hgroup⟩
  | ok found =>
      cases found with
      | none =>
          exact Or.inl ⟨.groupNotFound group, by rw [beginStart, hgroup], trivial⟩
      | some g =>
          cases hhost : c.placement? with
          | none =>
              exact Or.inl ⟨.noHost, by simp only [beginStart, hgroup, hhost], trivial⟩
          | some host =>
              cases hnumber : c.numbers.firstFree? g.name with
              | none =>
                  refine Or.inl ⟨.task "no number is free", ?_, trivial⟩
                  simp only [beginStart, hgroup, hhost, hnumber]
              | some number =>
                  rcases place_cases h hfresh hnumber host cause with
                    ⟨reason, _, hplace⟩ | ⟨c', hplace, hfits, hbooks⟩
                  · refine Or.inl ⟨.storage (.refused reason), ?_, trivial⟩
                    simp only [beginStart, hgroup, hhost, hnumber, hplace]
                  · refine Or.inr ⟨g, host, number, c', rfl, rfl, hnumber, ?_, hfits, hbooks⟩
                    simp only [beginStart, hgroup, hhost, hnumber, hplace]

theorem beginStop_begins (c : Controller) (env : Env) (id : ServerId) (cause : Cause) :
    Begins c env (.stop id cause) [] ((c.beginStop id cause).lift .stop .server) := by
  rw [beginStop]
  cases hget : c.store.get? id with
  | none =>
      exact .stopRefused trivial
  | some s =>
      have hs := Store.mem_of_get? hget
      cases hlaunching : c.store.isLaunching id with
      | true =>
          exact .stopRefused trivial
      | false =>
          cases hhost : c.host? s.hostId with
          | none =>
              simp only [hhost]
              exact .stopRefused trivial
          | some host =>
              simp only [hhost]
              have hlanded : s.id ∉ c.store.launching := by
                rw [hs.right, ← Store.isLaunching_iff, hlaunching]
                exact Bool.false_ne_true
              have hstopping : Begins c env (.stop s.id cause) [] _ :=
                .stopping hs.left hlanded hhost
              rw [hs.right] at hstopping
              exact hstopping

theorem beginAttach_begins (c : Controller) (env : Env) (placed : List Identity) (host : Host) :
    Begins c env (.attach host) [] ((c.beginAttach host).2.lift .attach (.attached host)) ∧
      (c.beginAttach host).1.books placed = c.books placed := by
  rw [beginAttach]
  simp only
  split
  next =>
    exact ⟨.attached, rfl⟩
  next =>
    exact ⟨.sweeping, rfl⟩

theorem Begins.placed_eq {order : Order} {es : List Edit} {p : Progress Job Outcome}
    (h : Begins c env order es p) : p.placed = es.flatMap Edit.placed := by
  cases h with
  | startRefused _ =>
      rfl
  | placed _ _ _ =>
      rfl
  | stopRefused _ =>
      rfl
  | stopping _ _ _ =>
      rfl
  | attached =>
      rfl
  | sweeping =>
      rfl

theorem begins_begin (h : (c.books placed).Sound)
    (hfresh : env.serverId ∉ placed.map Identity.id) (order : Order) :
    ∃ es, Begins c env order es (c.begin env order).2 ∧
      (c.books placed).Edited env.now es
        ((c.begin env order).1.books ((c.begin env order).2.placed ++ placed)) := by
  cases order with
  | start group cause =>
      rw [begin]
      rcases beginStart_cases h hfresh group cause with ⟨e, hbegin, he⟩ |
        ⟨g, host, number, c', hgroup, hhost, hnumber, hbegin, hfits, hbooks⟩
      · rw [hbegin]
        exact ⟨[], .startRefused he, .nil _⟩
      · rw [hbegin]
        refine ⟨_, .placed hgroup hhost hnumber, ?_⟩
        show (c.books placed).Edited env.now _ (c'.books (_ :: placed))
        rw [hbooks]
        exact .single hfits
  | stop id cause =>
      have hbegins := beginStop_begins c env id cause
      refine ⟨[], hbegins, ?_⟩
      rw [begin, hbegins.placed_eq]
      exact .nil _
  | attach host =>
      rcases beginAttach_begins c env placed host with ⟨hbegins, hbooks⟩
      refine ⟨[], hbegins, ?_⟩
      have hplaced : (c.begin env (.attach host)).2.placed = [] := hbegins.placed_eq
      rw [hplaced]
      show (c.books placed).Edited env.now [] ((c.beginAttach host).1.books placed)
      rw [hbooks]
      exact .nil _

end Controller
end ServerFleet
