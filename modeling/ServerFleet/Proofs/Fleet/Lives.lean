import ServerFleet.Proofs.Fleet.Moves

/-!
# Every server lives once

A server is started at most once and stopped at most once, however many starts, stops
and registrations are under way.  The one start is published when its launch is
committed, the one stop when its record is removed, and after the removal nothing is
ever stored or published about it again.
-/

namespace ServerFleet

/-!
# The events published so far
-/

/-- A kind of event has occurred at most once, and not at all while it is still to come. -/
def Once (log : List FleetEvent) (kind : FleetEvent → Bool) (pending : Prop) : Prop :=
  log.countP kind ≤ 1 ∧ (pending → log.countP kind = 0)

theorem Once.append {log events : List FleetEvent} {kind : FleetEvent → Bool}
    {pending pending' occurs : Prop} [Decidable occurs] (h : Once log kind pending)
    (hcount : events.countP kind = if occurs then 1 else 0)
    (hoccurs : occurs → pending ∧ ¬ pending') (hpending : pending' → pending) :
    Once (log ++ events) kind pending' := by
  rw [Once, List.countP_append, hcount]
  split
  next hnow =>
    have hoccurs := hoccurs hnow
    constructor
    · rw [h.right hoccurs.left]
    · intro hpending'
      exact absurd hpending' hoccurs.right
  next =>
    exact ⟨h.left, fun hpending' => h.right (hpending hpending')⟩

/-- The events published so far: none before a server has landed has started it, and none while its record
is there has stopped it. -/
structure Books.Chronicled (b : Books) (log : List FleetEvent) : Prop where
  starts : ∀ id, Once log (FleetEvent.starts id)
    (id ∈ b.store.launching ∨ id ∉ b.placed.map Identity.id)
  stops : ∀ id, Once log (FleetEvent.stops id)
    (id ∈ Store.ids b.store.index ∨ id ∉ b.placed.map Identity.id)

namespace Books

variable {b b' : Books} {log : List FleetEvent} {now : Time.Instant} {e : Edit} {es : List Edit}

theorem Sound.of_committed? (h : b.Sound) (he : e.Fits b) (now : Time.Instant) {id : ServerId}
    (hid : e.committed? = some id) :
    id ∈ b.store.launching ∧ id ∉ (b.edit now e).store.launching ∧
      id ∈ (b.edit now e).placed.map Identity.id := by
  cases e with
  | commit s cause =>
      cases hid
      refine ⟨he.right, ?_, h.placed_of_ids (h.launching s.id he.right)⟩
      rw [mem_launching_edit]
      simp [Edit.begun?, Edit.ended?]
  | place _ | withdraw _ | land _ | refresh _ | override _ _ | remove _ _ =>
      cases hid

theorem Sound.of_removed? (h : b.Sound) (he : e.Fits b) (now : Time.Instant) {id : ServerId}
    (hid : e.removed? = some id) :
    id ∈ Store.ids b.store.index ∧ id ∉ Store.ids (b.edit now e).store.index ∧
      id ∈ (b.edit now e).placed.map Identity.id := by
  cases e with
  | remove s cause =>
      cases hid
      have hmem := Store.mem_ids he.left
      refine ⟨hmem, ?_, h.placed_of_ids hmem⟩
      rw [h.mem_ids_edit he]
      simp [Edit.begun?, Edit.gone?]
  | place _ | commit _ _ | withdraw _ | land _ | refresh _ | override _ _ =>
      cases hid

theorem Chronicled.edit (hc : b.Chronicled log) (h : b.Sound) (now : Time.Instant) (he : e.Fits b) :
    (b.edit now e).Chronicled (log ++ (e.event? now).toList) := by
  constructor
  case starts =>
    intro id
    refine (hc.starts id).append (Edit.countP_starts now e id) ?_ ?_
    · intro hid
      have hcommitted := h.of_committed? he now hid
      refine ⟨Or.inl hcommitted.left, ?_⟩
      intro hpending
      rcases hpending with hlaunching | hunplaced
      · exact hcommitted.right.left hlaunching
      · exact hunplaced hcommitted.right.right
    -- A launch begun just now is of a server never placed before: its start was to come all the time.
    · intro hpending
      rcases hpending with hlaunching | hunplaced
      · rcases mem_launching_edit.mp hlaunching with hbegun | hold
        · exact Or.inr fun hplaced => begun_ne_of_placed he hplaced hbegun
        · exact Or.inl hold.left
      · exact Or.inr fun hplaced => hunplaced (mem_placed_edit hplaced)
  case stops =>
    intro id
    refine (hc.stops id).append (Edit.countP_stops now e id) ?_ ?_
    · intro hid
      have hremoved := h.of_removed? he now hid
      refine ⟨Or.inl hremoved.left, ?_⟩
      intro hpending
      rcases hpending with hmem | hunplaced
      · exact hremoved.right.left hmem
      · exact hunplaced hremoved.right.right
    · intro hpending
      rcases hpending with hmem | hunplaced
      · rcases (h.mem_ids_edit he).mp hmem with hbegun | hold
        · exact Or.inr fun hplaced => begun_ne_of_placed he hplaced hbegun
        · exact Or.inl hold.left
      · exact Or.inr fun hplaced => hunplaced (mem_placed_edit hplaced)

theorem Chronicled.edited (hc : b.Chronicled log) (h : b.Sound) (hes : Edited now b es b') :
    b'.Chronicled (log ++ es.filterMap (Edit.event? now)) := by
  induction hes generalizing log with
  | nil b =>
      rw [List.filterMap_nil, List.append_nil]
      exact hc
  | @cons b b' e es he _ ih =>
      have hrest := ih (hc.edit h now he) (h.edit now he)
      cases hevent : e.event? now with
      | none =>
          simpa [hevent] using hrest
      | some event =>
          simpa [hevent] using hrest

theorem Chronicled.fewer (hc : b.Chronicled log) (hplaced : b'.placed = b.placed)
    (hlaunching : ∀ id ∈ b'.store.launching, id ∈ b.store.launching)
    (hids : ∀ id ∈ Store.ids b'.store.index, id ∈ Store.ids b.store.index) : b'.Chronicled log where
  starts := by
    intro id
    rw [hplaced]
    exact ⟨(hc.starts id).left, fun hpending => (hc.starts id).right (hpending.imp_left (hlaunching id))⟩
  stops := by
    intro id
    rw [hplaced]
    exact ⟨(hc.stops id).left, fun hpending => (hc.stops id).right (hpending.imp_left (hids id))⟩

end Books

namespace Fleet

variable {w w' : Fleet} {move : Move} {now : Time.Instant} {es : List Edit} {id : ServerId}

theorem Sound.chronicled_step (h : w.Sound) {log : List FleetEvent} (hc : w.books.Chronicled log)
    (move : Move) : (w.step move).books.Chronicled (log ++ w.published move) := by
  rcases h.goes move with ⟨now, es, hgoes⟩
  rw [hgoes.published]
  rcases hgoes.edited_or_restart with
    ⟨b, database, hedited, hbooks⟩ | ⟨settings, _, hes, hplaced, hcontroller⟩
  · rw [hbooks]
    exact (hc.edited h.books hedited).fewer rfl (fun _ hid => hid) fun _ hid => hid
  · rw [hes, List.filterMap_nil, List.append_nil]
    refine hc.fewer hplaced ?_ ?_
    · intro id hid
      rw [Fleet.books, hcontroller] at hid
      cases hid
    · intro id hid
      rw [Fleet.books, hcontroller] at hid
      exact (mem_ids_recovered _ settings).mp hid

theorem chronicled_run (settings : ControlSettings) (moves : List Move) :
    (run settings moves).books.Chronicled ((fresh settings).history moves) := by
  induction moves using List.reverseRecOn with
  | nil =>
      constructor
      case starts | stops =>
        intro id
        exact ⟨Nat.zero_le 1, fun _ => rfl⟩
  | append_singleton moves move ih =>
      rw [run_snoc, history_snoc]
      exact (sound_run settings moves).chronicled_step ih move

/-!
# Commits and removals
-/

def Commits (w : Fleet) (move : Move) (id : ServerId) : Prop :=
  ∃ t env replies order work s, move = .go t env replies ∧
    w.tasks t = some ⟨order, .asking (.start work)⟩ ∧ work.provisional.id = id ∧
    (w.step move).tasks t = some ⟨order, .ended (.server (.ok s))⟩

def Settles (w : Fleet) (move : Move) : Prop :=
  ∃ t env replies order job, move = .go t env replies ∧ w.tasks t = some ⟨order, .asking job⟩ ∧
    ∀ work, job ≠ .start work

/-- A stop or a registration goes on, and a record is gone. -/
def Removes (w : Fleet) (move : Move) (id : ServerId) : Prop :=
  w.Settles move ∧ id ∈ Store.ids w.controller.store.index ∧
    id ∉ Store.ids (w.step move).controller.store.index

theorem Goes.settles (hgoes : w.Goes move now es w') (h : w.Sound) (hsettles : w.Settles move) :
    (∀ e ∈ es, (∃ m, e = .refresh m) ∨ ∃ s cause, e = .remove s cause) ∧
      ∃ b database, w.books.Edited now es b ∧ w'.books = b.onDatabase database := by
  rcases hsettles with ⟨t, env, replies, order, job, rfl, htask, hjob⟩
  refine ⟨?_, hgoes.edited fun settings hmove => by cases hmove⟩
  intro e he
  cases hgoes.makes h he with
  | stopped _ | purged _ =>
      exact Or.inr ⟨_, _, rfl⟩
  | refreshed _ _ _ _ _ =>
      exact Or.inl ⟨_, rfl⟩
  | placed hold =>
      rw [htask] at hold
      cases hold
  | committed hold _ _ | withdrawn hold _ | landed hold _ =>
      rw [htask] at hold
      cases hold
      exact absurd rfl (hjob _)
  | overridden hmove _ =>
      cases hmove

theorem Goes.quiet (hgoes : w.Goes move now es w') (h : w.Sound) (hsettles : w.Settles move) :
    ∀ e ∈ es, e.begun? = none ∧ e.ended? = none := by
  intro e he
  rcases (hgoes.settles h hsettles).left e he with ⟨m, rfl⟩ | ⟨s, cause, rfl⟩
  · exact ⟨rfl, rfl⟩
  · exact ⟨rfl, rfl⟩

theorem Goes.exists_committed_iff (hgoes : w.Goes move now es (w.step move)) (h : w.Sound) :
    (∃ e ∈ es, e.committed? = some id) ↔ w.Commits move id := by
  rw [Commits]
  generalize w.step move = w' at *
  constructor
  · intro hcommitted
    rcases hcommitted with ⟨e, he, hid⟩
    cases hgoes.makes h he with
    | @committed t order env replies l m hold hmerged hended =>
        have hm : m.id = id := Option.some.inj hid
        refine ⟨t, env, replies, order, _, m, rfl, hold, ?_, hended⟩
        rw [← hm]
        exact (Server.id_of_identity (Server.identity_of_bind hmerged)).symm
    | placed _ | withdrawn _ _ | landed _ _ | stopped _ | purged _ | refreshed _ _ _ _ _
    | overridden _ _ =>
        cases hid
  · intro hcommits
    rcases hcommits with ⟨t, env, replies, order, work, s, rfl, htask, hid, hended⟩
    have hresumes := hgoes.resumes_of_ended htask hended
    cases hresumes with
    | committed hmerged =>
        refine ⟨_, List.mem_cons_self, ?_⟩
        rw [← hid]
        exact congrArg some (Server.id_of_identity (Server.identity_of_bind hmerged))

theorem Goes.settles_of_removed? (hgoes : w.Goes move now es w') (h : w.Sound) {e : Edit}
    (he : e ∈ es) (hid : e.removed? = some id) : w.Settles move := by
  cases hgoes.makes h he with
  | stopped hold | purged hold =>
      refine ⟨_, _, _, _, _, rfl, hold, ?_⟩
      intro work hjob
      cases hjob
  | placed _ | committed _ _ _ | withdrawn _ _ | landed _ _ | refreshed _ _ _ _ _ | overridden _ _ =>
      cases hid

theorem Goes.exists_removed_iff (hgoes : w.Goes move now es (w.step move)) (h : w.Sound) :
    (∃ e ∈ es, e.removed? = some id) ↔ w.Removes move id := by
  have hids (hsettles : w.Settles move) :
      id ∈ Store.ids (w.step move).controller.store.index ↔
        id ∈ Store.ids w.controller.store.index ∧ ∀ e ∈ es, e.gone? ≠ some id := by
    rcases (hgoes.settles h hsettles).right with ⟨b, database, hedited, hbooks⟩
    rw [index_of_books hbooks]
    exact hedited.mem_ids h.books fun e he => (hgoes.quiet h hsettles e he).left
  constructor
  -- Everything that a stop or a registration edits was there before, and nothing is placed meanwhile.
  · intro hremoved
    rcases hremoved with ⟨e, he, hid⟩
    have hsettles := hgoes.settles_of_removed? h he hid
    refine ⟨hsettles, ?_, ?_⟩
    · rcases (hgoes.settles h hsettles).right with ⟨b, database, hedited, _⟩
      rw [← Edit.id_of_removed? hid]
      exact hedited.mem_ids_of_mem h.books (hgoes.nodup h) he (hgoes.quiet h hsettles e he).left
    · intro hmem
      exact ((hids hsettles).mp hmem).right e he (Edit.gone?_of_removed? hid)
  · intro hremoves
    rcases hremoves with ⟨hsettles, hmem, hgone⟩
    by_contra hnone
    refine hgone ((hids hsettles).mpr ⟨hmem, ?_⟩)
    intro e he hgone'
    exact hnone ⟨e, he, Edit.removed?_of_gone? hgone' (hgoes.quiet h hsettles e he).right⟩

/-!
# What is published about a server
-/

theorem Sound.published_of_commits (h : w.Sound) (hcommits : w.Commits move id) :
    ∃ s cause now, (w.step move).controller.store.get? id = some s ∧
      (w.published move).filter (FleetEvent.isAbout id) = [.start s cause now] := by
  rcases h.goes move with ⟨now, es, hgoes⟩
  rcases (hgoes.exists_committed_iff h).mpr hcommits with ⟨e, he, hid⟩
  have hsame := Edit.id_of_committed? hid
  have hleft := hgoes.get?_of_mem h he
  cases e with
  | commit s cause =>
      refine ⟨s, cause, now, ?_, ?_⟩
      · rw [← hsame]
        exact hleft
      · rw [hgoes.published, ← hsame, Edit.filter_isAbout (hgoes.nodup h) he]
        rfl
  | place _ | withdraw _ | land _ | refresh _ | override _ _ | remove _ _ =>
      cases hid

theorem Goes.get?_of_remove (hgoes : w.Goes move now es w') (h : w.Sound) {s : Server} {cause : Cause}
    (he : .remove s cause ∈ es) : w.controller.store.get? s.id = some s := by
  rcases hgoes.isolate h he with ⟨found, hfound, hfits, hbefore, _⟩
  exact hbefore.record.symm.trans (hfound.store.get?_eq_some_iff.mpr ⟨hfits.left, rfl⟩)

theorem Sound.published_of_removes (h : w.Sound) (hremoves : w.Removes move id) :
    ∃ s cause now, w.controller.store.get? id = some s ∧
      w.controller.numbers.isHeld s.group s.number.toNat = true ∧
      (w.step move).controller.numbers.isHeld s.group s.number.toNat = false ∧
      (w.published move).filter (FleetEvent.isAbout id) = [.stop s cause now] := by
  rcases h.goes move with ⟨now, es, hgoes⟩
  rcases (hgoes.exists_removed_iff h).mpr hremoves with ⟨e, he, hid⟩
  have hsame := Edit.id_of_removed? hid
  rcases (hgoes.settles h hremoves.left).right with ⟨b, database, hedited, hbooks⟩
  cases e with
  | remove s cause =>
      have hs := hgoes.get?_of_remove h he
      refine ⟨s, cause, now, hsame ▸ hs, ?_, ?_, ?_⟩
      · exact h.books.isHeld hs
      · have hnumbers : (w.step move).controller.numbers = b.numbers := congrArg Books.numbers hbooks
        have hgone : s.id ∉ Store.ids b.store.index := by
          rw [← index_of_books hbooks, show s.id = id from hsame]
          exact hremoves.right.right
        rw [← Bool.not_eq_true, Numbers.isHeld_iff, hnumbers]
        exact hedited.not_taken h.books (fun e he => (hgoes.quiet h hremoves.left e he).left)
          (Store.mem_of_get? hs).left hgone
      · rw [hgoes.published, ← hsame, Edit.filter_isAbout (hgoes.nodup h) he]
        rfl
  | place _ | commit _ _ | withdraw _ | land _ | refresh _ | override _ _ =>
      cases hid

theorem Sound.removes_of_not_held (h : w.Sound) (hsettles : w.Settles move) {s : Server}
    (hs : w.controller.store.get? id = some s)
    (hfree : (w.step move).controller.numbers.isHeld s.group s.number.toNat = false) :
    w.Removes move id := by
  refine ⟨hsettles, Store.exists_get?_iff.mp ⟨s, hs⟩, ?_⟩
  intro hstill
  rcases Store.exists_get?_iff.mpr hstill with ⟨r, hr⟩
  rcases h.goes move with ⟨now, es, hgoes⟩
  have hsound := (h.step move).books
  have hbefore := Store.mem_of_get? hs
  have hafter := Store.mem_of_get? hr
  have hidentity : r.identity = s.identity :=
    hsound.identity_eq (hsound.placed r hafter.left) (hgoes.mem_placed (h.books.placed s hbefore.left))
      (hafter.right.trans hbefore.right.symm)
  have hgroup : r.group = s.group := congrArg Identity.group hidentity
  have hnumber : r.number = s.number := congrArg Identity.number hidentity
  have hheld := hsound.isHeld hr
  rw [hgroup, hnumber] at hheld
  exact Bool.false_ne_true (hfree.symm.trans hheld)

theorem Sound.published_of_not_removes (h : w.Sound) (hsettles : w.Settles move)
    (hkept : ¬ w.Removes move id) : (w.published move).filter (FleetEvent.isAbout id) = [] := by
  rcases h.goes move with ⟨now, es, hgoes⟩
  rw [hgoes.published, List.filter_eq_nil_iff]
  intro event hevent habout
  rcases List.mem_filterMap.mp hevent with ⟨e, he, hpublished⟩
  have hid := (Edit.id_of_event? hpublished).symm.trans (FleetEvent.isAbout_iff.mp habout)
  rcases (hgoes.settles h hsettles).left e he with ⟨m, rfl⟩ | ⟨s, cause, rfl⟩
  · cases hpublished
  · exact hkept ((hgoes.exists_removed_iff h).mp ⟨_, he, congrArg some hid⟩)

theorem Sound.gone (h : w.Sound) (hplaced : id ∈ w.placed.map Identity.id)
    (habsent : id ∉ Store.ids w.controller.store.index) (move : Move) :
    id ∈ (w.step move).placed.map Identity.id ∧
      id ∉ Store.ids (w.step move).controller.store.index ∧
      (w.published move).filter (FleetEvent.isAbout id) = [] := by
  rcases h.goes move with ⟨now, es, hgoes⟩
  have hgone := hgoes.absent h hplaced habsent
  refine ⟨hgoes.mem_placed_ids hplaced, hgone.right, ?_⟩
  rw [hgoes.published]
  exact Edit.filter_isAbout_eq_nil hgone.left

theorem placed_of_run (settings : ControlSettings) (moves more : List Move)
    (hid : id ∈ (run settings moves).placed.map Identity.id) :
    id ∈ (run settings (moves ++ more)).placed.map Identity.id := by
  induction more using List.reverseRecOn with
  | nil =>
      rw [List.append_nil]
      exact hid
  | append_singleton more move ih =>
      rw [← List.append_assoc, run_snoc]
      rcases (sound_run settings (moves ++ more)).goes move with ⟨now, es, hgoes⟩
      exact hgoes.mem_placed_ids ih

theorem absent_of_run (settings : ControlSettings) (moves more : List Move)
    (hplaced : id ∈ (run settings moves).placed.map Identity.id)
    (habsent : id ∉ Store.ids (run settings moves).controller.store.index) :
    id ∉ Store.ids (run settings (moves ++ more)).controller.store.index := by
  induction more using List.reverseRecOn with
  | nil =>
      rw [List.append_nil]
      exact habsent
  | append_singleton more move ih =>
      rw [← List.append_assoc, run_snoc]
      have h := sound_run settings (moves ++ more)
      exact (h.gone (placed_of_run settings moves more hplaced) ih move).right.left

/-- A server lives once in a run: it is started and stopped at most once, and once it is gone nothing is
heard of it again. -/
structure LivesOnce (settings : ControlSettings) (moves : List Move) (id : ServerId) : Prop where
  starts_le : ((fresh settings).history moves).countP (FleetEvent.starts id) ≤ 1
  stops_le : ((fresh settings).history moves).countP (FleetEvent.stops id) ≤ 1
  starts_iff : ∀ move, (∃ event ∈ (run settings moves).published move, event.starts id = true) ↔
    (run settings moves).Commits move id
  committed : ∀ move, (run settings moves).Commits move id → ∃ s cause now,
    ((run settings moves).step move).controller.store.get? id = some s ∧
      ((run settings moves).published move).filter (FleetEvent.isAbout id) = [.start s cause now]
  stops_iff : ∀ move, (∃ event ∈ (run settings moves).published move, event.stops id = true) ↔
    (run settings moves).Removes move id
  removed : ∀ move, (run settings moves).Removes move id → ∃ s cause now,
    (run settings moves).controller.store.get? id = some s ∧
      (run settings moves).controller.numbers.isHeld s.group s.number.toNat = true ∧
      ((run settings moves).step move).controller.numbers.isHeld s.group s.number.toNat = false ∧
      ((run settings moves).published move).filter (FleetEvent.isAbout id) = [.stop s cause now]
  released : ∀ move, (run settings moves).Settles move → ∀ s,
    (run settings moves).controller.store.get? id = some s →
    ((run settings moves).step move).controller.numbers.isHeld s.group s.number.toNat = false →
    (run settings moves).Removes move id
  silent : ∀ move, (run settings moves).Settles move → ¬ (run settings moves).Removes move id →
    ((run settings moves).published move).filter (FleetEvent.isAbout id) = []
  gone : ∀ earlier later, moves = earlier ++ later →
    id ∈ Store.ids (run settings earlier).controller.store.index →
    id ∉ Store.ids (run settings moves).controller.store.index → ∀ more,
    id ∉ Store.ids (run settings (moves ++ more)).controller.store.index ∧
      ∀ move, ((run settings (moves ++ more)).published move).filter (FleetEvent.isAbout id) = []

theorem servers_live_once (settings : ControlSettings) (moves : List Move) (id : ServerId) :
    LivesOnce settings moves id := by
  have h := sound_run settings moves
  have hchronicled := chronicled_run settings moves
  constructor
  case starts_le =>
    exact (hchronicled.starts id).left
  case stops_le =>
    exact (hchronicled.stops id).left
  case starts_iff =>
    intro move
    rcases h.goes move with ⟨now, es, hgoes⟩
    rw [hgoes.published, Edit.exists_starts_iff, hgoes.exists_committed_iff h]
  case committed =>
    intro move hcommits
    exact h.published_of_commits hcommits
  case stops_iff =>
    intro move
    rcases h.goes move with ⟨now, es, hgoes⟩
    rw [hgoes.published, Edit.exists_stops_iff, hgoes.exists_removed_iff h]
  case removed =>
    intro move hremoves
    exact h.published_of_removes hremoves
  case released =>
    intro move hsettles s hs hfree
    exact h.removes_of_not_held hsettles hs hfree
  case silent =>
    intro move hsettles hkept
    exact h.published_of_not_removes hsettles hkept
  case gone =>
    intro earlier later hmoves hthere habsent more
    have hplaced : id ∈ (run settings moves).placed.map Identity.id := by
      rw [hmoves]
      exact placed_of_run settings earlier later
        ((sound_run settings earlier).books.placed_of_ids hthere)
    have habsent' := absent_of_run settings moves more hplaced habsent
    refine ⟨habsent', ?_⟩
    intro move
    exact ((sound_run settings (moves ++ more)).gone (placed_of_run settings moves more hplaced)
      habsent' move).right.right

end Fleet
end ServerFleet
