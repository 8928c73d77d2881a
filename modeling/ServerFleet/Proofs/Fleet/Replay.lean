import ServerFleet.Proofs.Fleet.Moves
import ServerFleet.Proofs.Fleet.Registrations

/-!
# The view that events give

Who follows the events of a fleet from its beginning and keeps a view of its servers
sees exactly the servers that have landed, with the records that are stored.  Only a
host that registers again refreshes records without an event, and so the view of a
server may be out of date until its next event.
-/

namespace ServerFleet

/-- What is seen of a server after an event about it.  An override is of no use to one who does not see
the server. -/
def FleetEvent.shown (seen : Option Server) : FleetEvent → Option Server
  | .start s _ _ => some s
  | .stop _ _ _ => none
  | .update _ after _ => seen.map fun _ => after

abbrev View := ServerId → Option Server

def View.follow (view : View) (event : FleetEvent) : View :=
  Function.update view event.server.id (event.shown (view event.server.id))

def replay (events : List FleetEvent) : View :=
  events.foldl View.follow fun _ => none

def Store.landed? (st : Store) (id : ServerId) : Option Server :=
  if st.isLaunching id then none else st.get? id

/-!
# Views
-/

theorem View.foldl_follow (view : View) (events : List FleetEvent) (id : ServerId) :
    events.foldl View.follow view id =
      (events.filter (FleetEvent.isAbout id)).foldl FleetEvent.shown (view id) := by
  induction events generalizing view with
  | nil =>
      rfl
  | cons event rest ih =>
      rw [List.foldl_cons, ih, follow]
      by_cases hid : event.server.id = id
      · subst hid
        rw [List.filter_cons_of_pos (FleetEvent.isAbout_iff.mpr rfl), List.foldl_cons,
          Function.update_self]
      · rw [List.filter_cons_of_neg (fun habout => hid (FleetEvent.isAbout_iff.mp habout)),
          Function.update_of_ne (Ne.symm hid)]

theorem replay_append (log events : List FleetEvent) (id : ServerId) :
    replay (log ++ events) id =
      (events.filter (FleetEvent.isAbout id)).foldl FleetEvent.shown (replay log id) := by
  rw [replay, List.foldl_append]
  exact View.foldl_follow _ events id

namespace Store

variable {st : Store} {id : ServerId} {s : Server}

theorem landed?_of_launching (h : id ∈ st.launching) : st.landed? id = none :=
  if_pos (isLaunching_iff.mpr h)

theorem landed?_of_not_launching (h : id ∉ st.launching) : st.landed? id = st.get? id :=
  if_neg fun hlaunching => h (isLaunching_iff.mp hlaunching)

theorem landed?_of_absent (h : id ∉ ids st.index) : st.landed? id = none := by
  rw [landed?, get?_eq_none_iff.mpr h, ite_self]

theorem landed?_eq_some_iff : st.landed? id = some s ↔ st.get? id = some s ∧ id ∉ st.launching := by
  by_cases h : id ∈ st.launching
  · simp [landed?_of_launching h, h]
  · simp [landed?_of_not_launching h, h]

end Store

namespace Books

variable {b b' : Books} {e : Edit} {id : ServerId}

theorem Alike.landed?_eq (h : b.Alike b' id) : b'.store.landed? id = b.store.landed? id := by
  by_cases hlaunching : id ∈ b.store.launching
  · rw [Store.landed?_of_launching hlaunching, Store.landed?_of_launching (h.launching.mpr hlaunching)]
  · have hlanded : id ∉ b'.store.launching := fun hmem => hlaunching (h.launching.mp hmem)
    rw [Store.landed?_of_not_launching hlaunching, Store.landed?_of_not_launching hlanded, h.record]

/-- Only a launch that ends without its record being taken back comes to be landed unseen. -/
theorem Sound.shown_edit (h : Sound b) (he : e.Fits b) (now : Time.Instant)
    (hkept : ∀ id, e ≠ .land id) {seen : Option Server} (hseen : seen.isSome = (b.store.landed? e.id).isSome) :
    ((e.event? now).toList.foldl FleetEvent.shown seen).isSome =
        ((b.edit now e).store.landed? e.id).isSome ∧
      ((∀ m, e ≠ .refresh m) → (e.event? now = none → seen = b.store.landed? e.id) →
        (e.event? now).toList.foldl FleetEvent.shown seen = (b.edit now e).store.landed? e.id) := by
  have hafter := h.get?_edit he now
  cases e with
  | place s =>
      have hbefore : b.store.landed? s.id = none :=
        Store.landed?_of_absent fun hmem => he.left (h.placed_of_ids hmem)
      have hnone : seen = none := by
        simpa [Edit.id, hbefore] using hseen
      have hunseen : (b.edit now (.place s)).store.landed? s.id = none :=
        Store.landed?_of_launching (mem_launching_edit.mpr (Or.inl rfl))
      rw [hnone, Edit.id, hunseen]
      exact ⟨rfl, fun _ _ => rfl⟩
  | withdraw s =>
      have hnone : seen = none := by
        simpa [Edit.id, Store.landed?_of_launching he.right] using hseen
      have hunseen : (b.edit now (.withdraw s)).store.landed? s.id = none :=
        Store.landed?_of_absent (Store.get?_eq_none_iff.mp hafter)
      rw [hnone, Edit.id, hunseen]
      exact ⟨rfl, fun _ _ => rfl⟩
  | land id =>
      exact absurd rfl (hkept id)
  | commit s cause =>
      have hlanded : (b.edit now (.commit s cause)).store.landed? s.id = some s := by
        refine Store.landed?_eq_some_iff.mpr ⟨hafter, ?_⟩
        rw [mem_launching_edit]
        simp [Edit.begun?, Edit.ended?]
      rw [Edit.id, hlanded]
      exact ⟨rfl, fun _ _ => rfl⟩
  | remove s cause =>
      have hunseen : (b.edit now (.remove s cause)).store.landed? s.id = none :=
        Store.landed?_of_absent (Store.get?_eq_none_iff.mp hafter)
      rw [Edit.id, hunseen]
      exact ⟨rfl, fun _ _ => rfl⟩
  | refresh s =>
      rcases Store.exists_get?_iff.mpr he.right.left with ⟨r, hr⟩
      have hbefore : b.store.landed? s.id = some r :=
        Store.landed?_eq_some_iff.mpr ⟨hr, he.right.right⟩
      have hlanded : (b.edit now (.refresh s)).store.landed? s.id = some s :=
        Store.landed?_eq_some_iff.mpr ⟨hafter, he.right.right⟩
      rw [Edit.id, hbefore] at hseen
      rw [Edit.id, hlanded]
      exact ⟨hseen, fun hrefresh => absurd rfl (hrefresh s)⟩
  | override before after =>
      by_cases hflight : after.id ∈ b.store.launching
      -- The event comes before the start of the server, and is of no use.
      · have hnone : seen = none := by
          simpa [Edit.id, Store.landed?_of_launching hflight] using hseen
        have hunseen : (b.edit now (.override before after)).store.landed? after.id = none :=
          Store.landed?_of_launching hflight
        rw [hnone, Edit.id, hunseen]
        exact ⟨rfl, fun _ _ => rfl⟩
      · have hget : b.store.get? after.id = some before :=
          h.store.get?_eq_some_iff.mpr ⟨he.left, (Server.id_of_identity he.right).symm⟩
        have hlanded : (b.edit now (.override before after)).store.landed? after.id = some after :=
          Store.landed?_eq_some_iff.mpr ⟨hafter, hflight⟩
        rw [Edit.id, Store.landed?_eq_some_iff.mpr ⟨hget, hflight⟩] at hseen
        rcases Option.isSome_iff_exists.mp hseen with ⟨r, rfl⟩
        rw [Edit.id, hlanded]
        exact ⟨rfl, fun _ _ => rfl⟩

end Books

namespace Fleet

variable {w w' : Fleet} {move : Move} {now : Time.Instant} {es : List Edit} {id : ServerId}

/-!
# Refreshed records
-/

theorem Goes.ne_land (hgoes : w.Goes move now es w') (h : w.Sound) (hdeletes : w.Deletes) {e : Edit} (he : e ∈ es) :
    ∀ id, e ≠ .land id := by
  intro id hland
  subst hland
  cases hgoes.makes h he with
  | landed _ hrefused =>
      rw [hdeletes] at hrefused
      cases hrefused

def Refreshes (w : Fleet) (move : Move) (id : ServerId) : Prop :=
  ∃ t env replies host sweep report, move = .go t env replies ∧
    w.tasks t = some ⟨.attach host, .asking (.attach sweep)⟩ ∧
    (w.step move).Reports t host report ∧ id ∈ report.reattached

theorem Goes.exists_refreshed_iff (hgoes : w.Goes move now es (w.step move)) (h : w.Sound) :
    (∃ m, .refresh m ∈ es ∧ m.id = id) ↔ w.Refreshes move id := by
  rw [Refreshes]
  generalize w.step move = w' at *
  constructor
  · intro hrefreshed
    rcases hrefreshed with ⟨m, hm, rfl⟩
    cases hgoes.makes h hm with
    | refreshed hold _ _ hended hreport =>
        exact ⟨_, _, _, _, _, _, rfl, hold, hended, hreport⟩
  · intro hrefreshes
    rcases hrefreshes with ⟨t, env, replies, host, sweep, report, rfl, htask, hended, hreport⟩
    have hresumes := hgoes.resumes_of_ended htask hended
    cases hresumes with
    | swept hsweeps =>
        exact (hsweeps.reattached_iff.mp hreport).resolve_left List.not_mem_nil

/-- A registration has refreshed a server, and since then nothing was published about it. -/
def Stale (settings : ControlSettings) (moves : List Move) (id : ServerId) : Prop :=
  ∃ before move after, moves = before ++ move :: after ∧ (run settings before).Refreshes move id ∧
    ((run settings (before ++ [move])).history after).filter (FleetEvent.isAbout id) = []

theorem stale_of_refreshes {settings : ControlSettings} {moves : List Move}
    (h : (run settings moves).Refreshes move id) : Stale settings (moves ++ [move]) id :=
  ⟨moves, move, [], rfl, h, rfl⟩

theorem Stale.snoc {settings : ControlSettings} {moves : List Move} (h : Stale settings moves id)
    (hsilent : ((run settings moves).published move).filter (FleetEvent.isAbout id) = []) :
    Stale settings (moves ++ [move]) id := by
  rcases h with ⟨before, refreshing, after, hmoves, hrefreshes, hafter⟩
  refine ⟨before, refreshing, after ++ [move], by simp [hmoves], hrefreshes, ?_⟩
  have hrun : after.foldl Fleet.step (run settings (before ++ [refreshing])) = run settings moves := by
    rw [← run_append, hmoves, List.append_assoc]
    rfl
  rw [history_append, List.filter_append, hafter, hrun, history, history, List.append_nil, hsilent]
  rfl

/-!
# Following a run
-/

/-- One move: whether a server is seen stays right, and what is seen of it is right again after an event about
it, or stays right unless the move refreshes it. -/
theorem Sound.follow_step (h : w.Sound) (hdeletes : w.Deletes) (hsteady : move.Steady)
    {log : List FleetEvent}
    (hseen : (replay log id).isSome = (w.controller.store.landed? id).isSome) :
    (replay (log ++ w.published move) id).isSome =
        ((w.step move).controller.store.landed? id).isSome ∧
      (¬ w.Refreshes move id →
        ((w.published move).filter (FleetEvent.isAbout id) = [] →
          replay log id = w.controller.store.landed? id) →
        replay (log ++ w.published move) id = (w.step move).controller.store.landed? id) := by
  rcases h.goes move with ⟨now, es, hgoes⟩
  rw [replay_append, hgoes.published]
  by_cases hedited : ∃ e ∈ es, e.id = id
  · rcases hedited with ⟨e, he, rfl⟩
    rcases hgoes.isolate h he with ⟨found, hfound, hfits, hbefore, hafter⟩
    have hfoundlanded : found.store.landed? e.id = w.controller.store.landed? e.id := hbefore.landed?_eq
    have hlanded : (w.step move).controller.store.landed? e.id =
        (found.edit now e).store.landed? e.id := hafter.landed?_eq
    rw [Edit.filter_isAbout (hgoes.nodup h) he, hlanded]
    rw [← hfoundlanded] at hseen ⊢
    have hshown := hfound.shown_edit hfits now (hgoes.ne_land h hdeletes he) hseen
    refine ⟨hshown.left, ?_⟩
    intro hrefreshes hright
    apply hshown.right
    · intro m hm
      subst hm
      exact hrefreshes ((hgoes.exists_refreshed_iff h).mp ⟨m, he, rfl⟩)
    · intro hnone
      exact hright (by rw [hnone]; rfl)
  · have hothers : ∀ e ∈ es, e.id ≠ id := fun e he hid => hedited ⟨e, he, hid⟩
    have hlanded : (w.step move).controller.store.landed? id = w.controller.store.landed? id :=
      (hgoes.alike h hsteady.lasting hothers).landed?_eq
    rw [Edit.filter_isAbout_eq_nil hothers, hlanded]
    exact ⟨hseen, fun _ hright => hright rfl⟩

theorem follow_run (settings : ControlSettings) (moves : List Move)
    (hsteady : ∀ move ∈ moves, move.Steady) (id : ServerId) :
    (replay (run settings moves).events id).isSome =
        ((run settings moves).controller.store.landed? id).isSome ∧
      (¬ Stale settings moves id → replay (run settings moves).events id =
        (run settings moves).controller.store.landed? id) := by
  induction moves using List.reverseRecOn with
  | nil =>
      exact ⟨rfl, fun _ => rfl⟩
  | append_singleton moves move ih =>
      have hmove : move.Steady := hsteady move (List.mem_append_right _ List.mem_cons_self)
      have hearlier : ∀ earlier ∈ moves, earlier.Steady := fun earlier hmem =>
        hsteady earlier (List.mem_append_left _ hmem)
      have hseen := ih hearlier
      have h := sound_run settings moves
      rcases h.goes move with ⟨now, es, hgoes⟩
      rw [run_snoc, hgoes.events_eq hmove.lasting]
      have hstep := h.follow_step (deletes_run settings hearlier) hmove hseen.left
      refine ⟨hstep.left, ?_⟩
      intro hfresh
      apply hstep.right
      · intro hrefreshes
        exact hfresh (stale_of_refreshes hrefreshes)
      · intro hsilent
        exact hseen.right fun hstale => hfresh (hstale.snoc hsilent)

/-- In a run in which the database refuses no deletion of a server and the controller is not brought up anew,
the servers seen by one who follows the events are those that are stored and not launching.  What is
seen of each is its record, unless a registration has refreshed it since the last event about it. -/
theorem events_replay_to_store (settings : ControlSettings) (moves : List Move)
    (hsteady : ∀ move ∈ moves, move.Steady) (id : ServerId) :
    ((∃ seen, replay (run settings moves).events id = some seen) ↔
      (∃ s, (run settings moves).controller.store.get? id = some s) ∧
        id ∉ (run settings moves).controller.store.launching) ∧
    (¬ Stale settings moves id → ∀ seen, replay (run settings moves).events id = some seen →
      (run settings moves).controller.store.get? id = some seen) := by
  have hfollowed := follow_run settings moves hsteady id
  constructor
  · rw [← Option.isSome_iff_exists, hfollowed.left, Option.isSome_iff_exists]
    simp only [Store.landed?_eq_some_iff, exists_and_right]
  · intro hfresh seen hseen
    rw [hfollowed.right hfresh] at hseen
    exact (Store.landed?_eq_some_iff.mp hseen).left

open Overlap in
theorem events_replay_to_store_started :
    (∀ move ∈ moves.take 6, move.Steady) ∧
      (∃ seen, replay (run settings (moves.take 6)).events server = some seen) ∧
      (¬ Stale settings (moves.take 6) server →
        ∀ seen, replay (run settings (moves.take 6)).events server = some seen →
          (run settings (moves.take 6)).controller.store.get? server = some seen) := by
  have hsteady : ∀ move ∈ moves.take 6, move.Steady := by
    simp [moves, Move.Steady]
  have hreplayed := events_replay_to_store settings (moves.take 6) hsteady server
  refine ⟨hsteady, hreplayed.left.mpr ⟨?_, ?_⟩, hreplayed.right⟩
  · exact Option.isSome_iff_exists.mp (by decide +kernel)
  · decide +kernel

end Fleet
end ServerFleet
