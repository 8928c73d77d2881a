import ServerFleet.Proofs.Fleet.Books

/-!
# Edits, records and events

What an edit leaves of the record that it is about, and what it publishes.  In a
sequence of edits in which no server has two, each of them finds its own record as it
was at the beginning and leaves it as it will be in the end.
-/

namespace ServerFleet

namespace Feed

def events (feed : Feed) : List FleetEvent :=
  feed.published.toList.map Envelope.event

theorem events_publish (feed : Feed) (topic : String) (event : FleetEvent) (now : Time.Instant) :
    (feed.publish topic event now).events = feed.events ++ [event] := by
  simp [events, publish]

end Feed

namespace FleetEvent

def isAbout (id : ServerId) (event : FleetEvent) : Bool :=
  event.server.id = id

def starts (id : ServerId) : FleetEvent → Bool
  | .start s _ _ => s.id = id
  | .stop _ _ _ => false
  | .update _ _ _ => false

def stops (id : ServerId) : FleetEvent → Bool
  | .start _ _ _ => false
  | .stop s _ _ => s.id = id
  | .update _ _ _ => false

theorem isAbout_iff {id : ServerId} {event : FleetEvent} :
    event.isAbout id = true ↔ event.server.id = id := by
  simp [isAbout]

end FleetEvent

namespace Edit

def committed? : Edit → Option ServerId
  | .commit s _ => some s.id
  | _ => none

def removed? : Edit → Option ServerId
  | .remove s _ => some s.id
  | _ => none

def left? (found : Option Server) : Edit → Option Server
  | .place s => some s
  | .commit s _ => some s
  | .withdraw _ => none
  | .land _ => found
  | .refresh s => some s
  | .override _ after => some after
  | .remove _ _ => none

variable {now : Time.Instant} {e : Edit} {id : ServerId} {event : FleetEvent}

theorem id_of_event? (h : e.event? now = some event) : event.server.id = e.id := by
  cases e with
  | place _ | withdraw _ | land _ | refresh _ =>
      cases h
  | commit _ _ | override _ _ | remove _ _ =>
      cases h
      rfl

theorem id_of_committed? (h : e.committed? = some id) : e.id = id := by
  cases e with
  | commit s cause =>
      exact Option.some.inj h
  | place _ | withdraw _ | land _ | refresh _ | override _ _ | remove _ _ =>
      cases h

theorem id_of_removed? (h : e.removed? = some id) : e.id = id := by
  cases e with
  | remove s cause =>
      exact Option.some.inj h
  | place _ | commit _ _ | withdraw _ | land _ | refresh _ | override _ _ =>
      cases h

theorem id_of_gone? (h : e.gone? = some id) : e.id = id := by
  cases e with
  | withdraw s =>
      exact Option.some.inj h
  | remove s cause =>
      exact Option.some.inj h
  | place _ | commit _ _ | land _ | refresh _ | override _ _ =>
      cases h

theorem removed?_of_gone? (hgone : e.gone? = some id) (hended : e.ended? = none) :
    e.removed? = some id := by
  cases e with
  | remove s cause =>
      exact hgone
  | withdraw s =>
      cases hended
  | place _ | commit _ _ | land _ | refresh _ | override _ _ =>
      cases hgone

theorem gone?_of_removed? (h : e.removed? = some id) : e.gone? = some id := by
  cases e with
  | remove s cause =>
      exact h
  | place _ | commit _ _ | withdraw _ | land _ | refresh _ | override _ _ =>
      cases h

theorem countP_starts (now : Time.Instant) (e : Edit) (id : ServerId) :
    (e.event? now).toList.countP (FleetEvent.starts id) = if e.committed? = some id then 1 else 0 := by
  cases e <;> simp [event?, committed?, FleetEvent.starts, List.countP_cons]

theorem countP_stops (now : Time.Instant) (e : Edit) (id : ServerId) :
    (e.event? now).toList.countP (FleetEvent.stops id) = if e.removed? = some id then 1 else 0 := by
  cases e <;> simp [event?, removed?, FleetEvent.stops, List.countP_cons]

/-!
# The events of edits
-/

variable {es : List Edit}

theorem exists_starts_iff :
    (∃ event ∈ es.filterMap (event? now), event.starts id = true) ↔
      ∃ e ∈ es, e.committed? = some id := by
  have hevent (e : Edit) :
      (∃ event, e.event? now = some event ∧ event.starts id = true) ↔ e.committed? = some id := by
    cases e <;> simp [event?, committed?, FleetEvent.starts]
  simp only [List.mem_filterMap, ← hevent]
  tauto

theorem exists_stops_iff :
    (∃ event ∈ es.filterMap (event? now), event.stops id = true) ↔
      ∃ e ∈ es, e.removed? = some id := by
  have hevent (e : Edit) :
      (∃ event, e.event? now = some event ∧ event.stops id = true) ↔ e.removed? = some id := by
    cases e <;> simp [event?, removed?, FleetEvent.stops]
  simp only [List.mem_filterMap, ← hevent]
  tauto

theorem filter_isAbout_eq_nil (h : ∀ e ∈ es, e.id ≠ id) :
    (es.filterMap (event? now)).filter (FleetEvent.isAbout id) = [] := by
  rw [List.filter_eq_nil_iff]
  intro event hevent habout
  rcases List.mem_filterMap.mp hevent with ⟨e, he, hpublished⟩
  exact h e he ((id_of_event? hpublished).symm.trans (FleetEvent.isAbout_iff.mp habout))

theorem filter_isAbout (hnodup : (es.map Edit.id).Nodup) (he : e ∈ es) :
    (es.filterMap (event? now)).filter (FleetEvent.isAbout e.id) = (e.event? now).toList := by
  induction es with
  | nil =>
      cases he
  | cons first rest ih =>
      rw [List.map_cons, List.nodup_cons] at hnodup
      have happend : ((first :: rest).filterMap (event? now)) =
          (first.event? now).toList ++ rest.filterMap (event? now) := by
        cases hevent : first.event? now <;> simp [hevent]
      rw [happend, List.filter_append]
      rcases List.mem_cons.mp he with hfirst | hrest
      · subst hfirst
        have hothers : ∀ e' ∈ rest, e'.id ≠ e.id := by
          intro e' he' hsame
          exact hnodup.left (List.mem_map.mpr ⟨e', he', hsame⟩)
        rw [filter_isAbout_eq_nil hothers, List.append_nil, List.filter_eq_self]
        intro event hevent
        exact FleetEvent.isAbout_iff.mpr (id_of_event? (Option.mem_toList.mp hevent))
      · have hne : first.id ≠ e.id := by
          intro hsame
          exact hnodup.left (List.mem_map.mpr ⟨e, hrest, hsame.symm⟩)
        rw [ih hnodup.right hrest]
        have hfirst : (first.event? now).toList.filter (FleetEvent.isAbout e.id) = [] := by
          rw [List.filter_eq_nil_iff]
          intro event hevent habout
          have hid := id_of_event? (Option.mem_toList.mp hevent)
          exact hne (hid.symm.trans (FleetEvent.isAbout_iff.mp habout))
        rw [hfirst, List.nil_append]

end Edit

namespace Books

variable {b b' : Books} {now : Time.Instant} {e : Edit} {es : List Edit} {id : ServerId}

def onDatabase (b : Books) (database : Database) : Books :=
  { b with store := { b.store with database } }

/-- Two books have the same record of a server, and its launch is in flight in both or in neither. -/
structure Alike (b b' : Books) (id : ServerId) : Prop where
  record : b'.store.get? id = b.store.get? id
  launching : id ∈ b'.store.launching ↔ id ∈ b.store.launching

theorem Alike.refl (b : Books) (id : ServerId) : b.Alike b id :=
  ⟨rfl, Iff.rfl⟩

theorem Alike.onDatabase (h : b.Alike b' id) (database : Database) :
    b.Alike (b'.onDatabase database) id :=
  ⟨h.record, h.launching⟩

theorem Alike.trans {b'' : Books} (h : b.Alike b' id) (h' : b'.Alike b'' id) : b.Alike b'' id :=
  ⟨h'.record.trans h.record, h'.launching.trans h.launching⟩

/-!
# One edit
-/

theorem events_edit (b : Books) (now : Time.Instant) (e : Edit) :
    (b.edit now e).feed.events = b.feed.events ++ (e.event? now).toList := by
  rw [edit]
  cases e.event? now with
  | none =>
      exact (List.append_nil _).symm
  | some event =>
      exact Feed.events_publish _ _ _ _

theorem Sound.mem_ids_of_fits (h : Sound b) (he : e.Fits b) (hbegun : e.begun? = none) :
    e.id ∈ Store.ids b.store.index := by
  cases e with
  | place s =>
      cases hbegun
  | commit s cause =>
      exact h.launching s.id he.right
  | withdraw s =>
      exact Store.mem_ids he.left
  | land id =>
      exact h.launching id he
  | refresh s =>
      exact he.right.left
  | override before after =>
      rw [Edit.id, Server.id_of_identity he.right]
      exact Store.mem_ids he.left
  | remove s cause =>
      exact Store.mem_ids he.left

theorem Sound.get?_edit (h : Sound b) (he : e.Fits b) (now : Time.Instant) :
    (b.edit now e).store.get? e.id = e.left? (b.store.get? e.id) := by
  have hwritten {s : Server} (hplace : ¬ b.store.Occupied s) :
      (b.store.stored s).get? s.id = some s := by
    rw [h.store.get?_stored hplace, if_pos rfl]
  have hremoved (s : Server) : (b.store.without s.id).get? s.id = none := by
    rw [h.store.get?_without, if_pos rfl]
  cases e with
  | place s =>
      exact hwritten (h.not_occupied_of_free he.right)
  | commit s cause =>
      exact hwritten (h.not_occupied_of_placed he.left (h.launching s.id he.right))
  | withdraw s =>
      exact hremoved s
  | land id =>
      rfl
  | refresh s =>
      exact hwritten (h.not_occupied_of_placed he.left he.right.left)
  | override before after =>
      have hplaced : after.identity ∈ b.placed := he.right ▸ h.placed before he.left
      exact hwritten (h.not_occupied_of_placed hplaced (h.mem_ids_of_fits he rfl))
  | remove s cause =>
      exact hremoved s

/-!
# Sequences of edits
-/

theorem Edited.events (hes : Edited now b es b') :
    b'.feed.events = b.feed.events ++ es.filterMap (Edit.event? now) := by
  induction hes with
  | nil b =>
      simp
  | @cons b b' e es _ _ ih =>
      rw [ih, events_edit, List.append_assoc]
      cases hevent : e.event? now with
      | none =>
          simp [hevent]
      | some event =>
          simp [hevent]

theorem Edited.mem_placed (hes : Edited now b es b') {a : Identity} (ha : a ∈ b.placed) :
    a ∈ b'.placed := by
  induction hes with
  | nil b =>
      exact ha
  | cons _ _ ih =>
      exact ih (List.mem_append_right _ ha)

theorem Edited.database_eq (hes : Edited now b es b') :
    ∃ servers, b'.store.database = { b.store.database with servers } := by
  induction hes with
  | nil b =>
      exact ⟨_, rfl⟩
  | @cons b b' e es _ _ ih =>
      rcases ih with ⟨servers, hdatabase⟩
      refine ⟨servers, ?_⟩
      rw [hdatabase]
      cases e <;> rfl

theorem Edited.refusal_eq (hes : Edited now b es b') :
    b'.store.database.refusal = b.store.database.refusal := by
  rcases hes.database_eq with ⟨servers, hdatabase⟩
  rw [hdatabase]

theorem Edited.id_ne_of_absent (hes : Edited now b es b') (h : Sound b)
    (hplaced : id ∈ b.placed.map Identity.id) (habsent : id ∉ Store.ids b.store.index) :
    ∀ e ∈ es, e.id ≠ id := by
  induction hes with
  | nil b =>
      intro e he
      cases he
  | @cons b b' first rest hfirst _ ih =>
      intro e he
      rcases List.mem_cons.mp he with rfl | he
      · intro hsame
        cases hbegun : e.begun? with
        | none =>
            exact habsent (hsame ▸ h.mem_ids_of_fits hfirst hbegun)
        | some begun =>
            cases e with
            | place s =>
                exact begun_ne_of_placed hfirst hplaced (congrArg some hsame)
            | commit _ _ | withdraw _ | land _ | refresh _ | override _ _ | remove _ _ =>
                cases hbegun
      · refine ih (h.edit now hfirst) (mem_placed_edit hplaced) ?_ e he
        exact (Edited.single hfirst).absent h hplaced habsent

theorem mem_launching_edit_of_ne (hne : e.id ≠ id) :
    id ∈ (b.edit now e).store.launching ↔ id ∈ b.store.launching := by
  rw [mem_launching_edit]
  cases e <;> simp_all [Edit.id, Edit.begun?, Edit.ended?]

theorem Edited.alike (hes : Edited now b es b') (h : Sound b) (hothers : ∀ e ∈ es, e.id ≠ id) :
    b.Alike b' id where
  record := hes.get?_eq h hothers
  launching := by
    induction hes with
    | nil b =>
        exact Iff.rfl
    | @cons b b' e es he _ ih =>
        rw [ih (h.edit now he) fun e' he' => hothers e' (List.mem_cons_of_mem e he')]
        exact mem_launching_edit_of_ne (hothers e List.mem_cons_self)

/-- If no server has two edits, an edit finds its server as it was at first and leaves it as it will be. -/
theorem Edited.isolate (hes : Edited now b es b') (h : Sound b) (hnodup : (es.map Edit.id).Nodup)
    (he : e ∈ es) :
    ∃ found, Sound found ∧ e.Fits found ∧ b.Alike found e.id ∧ (found.edit now e).Alike b' e.id := by
  induction hes with
  | nil b =>
      cases he
  | @cons b b' first rest hfirst hrest ih =>
      rw [List.map_cons, List.nodup_cons] at hnodup
      have hsound := h.edit now hfirst
      rcases List.mem_cons.mp he with rfl | hmem
      -- The edit comes first, and none of the rest is about its server.
      · have hothers : ∀ e' ∈ rest, e'.id ≠ e.id := by
          intro e' he' hsame
          exact hnodup.left (List.mem_map.mpr ⟨e', he', hsame⟩)
        exact ⟨b, h, hfirst, .refl b _, hrest.alike hsound hothers⟩
      -- The first edit is about another server, and leaves this one as the rest will find it.
      · have hne : ∀ e' ∈ [first], e'.id ≠ e.id := by
          intro e' he' hsame
          rw [List.mem_singleton.mp he'] at hsame
          exact hnodup.left (List.mem_map.mpr ⟨e, hmem, hsame.symm⟩)
        have hsingle : Edited now b [first] (b.edit now first) := .single hfirst
        have halike := hsingle.alike h hne
        rcases ih hsound hnodup.right hmem with ⟨found, hfound, hfits, hbefore, hafter⟩
        exact ⟨found, hfound, hfits, halike.trans hbefore, hafter⟩

theorem Edited.mem_ids_of_mem (hes : Edited now b es b') (h : Sound b)
    (hnodup : (es.map Edit.id).Nodup) (he : e ∈ es) (hbegun : e.begun? = none) :
    e.id ∈ Store.ids b.store.index := by
  rcases hes.isolate h hnodup he with ⟨found, hfound, hfits, hbefore, _⟩
  rcases Store.exists_get?_iff.mpr (hfound.mem_ids_of_fits hfits hbegun) with ⟨s, hs⟩
  exact Store.exists_get?_iff.mp ⟨s, hbefore.record.symm.trans hs⟩

theorem Edited.identity_eq (hes : Edited now b es b') (h : Sound b) {s r : Server}
    (hs : s ∈ b.store.index) (hr : r ∈ b'.store.index) (hid : s.id = r.id) :
    s.identity = r.identity :=
  (hes.sound h).identity_eq (hes.mem_placed (h.placed s hs)) ((hes.sound h).placed r hr) hid

/-- The number of a record that is gone is free again, unless servers were placed since. -/
theorem Edited.not_taken (hes : Edited now b es b') (h : Sound b) (hquiet : ∀ e ∈ es, e.begun? = none)
    {s : Server} (hs : s ∈ b.store.index) (hgone : s.id ∉ Store.ids b'.store.index) :
    s.slot ∉ b'.numbers := by
  have h' := hes.sound h
  intro htaken
  rcases (h'.taken s.slot).mp htaken with ⟨r, hr, hslot⟩
  rcases List.mem_map.mp ((hes.mem_ids h hquiet).mp (Store.mem_ids hr)).left with ⟨own, hown, hid⟩
  have hplace : own.place = s.place :=
    Server.slot_eq_iff.mp ((Server.slot_of_identity (hes.identity_eq h hown hr hid)).trans hslot)
  have hsame : own = s := h.store.eq_of_place hown hs hplace
  exact hgone (hsame ▸ hid ▸ Store.mem_ids hr)

end Books
end ServerFleet
