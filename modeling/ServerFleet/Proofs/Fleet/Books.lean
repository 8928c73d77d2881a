import ServerFleet.Control.Basic
import ServerFleet.Proofs.Store.Numbers
import ServerFleet.Proofs.Store.Writes

/-!
# The books of a fleet

The store, the numbers and the feed are kept apart, and only change together.  An
edit is such a change, with the event that it publishes.  Every step of the
controller is a sequence of edits, so what an edit preserves holds in every state.
-/

namespace ServerFleet

/-- What of a server stays the same for its whole life. -/
structure Identity where
  id : ServerId
  group : String
  serverType : String
  number : UInt32
  hostId : HostId
  createdAt : Time.Instant
deriving DecidableEq

namespace Server

def identity (s : Server) : Identity where
  id := s.id
  group := s.group
  serverType := s.serverType
  number := s.number
  hostId := s.hostId
  createdAt := s.createdAt

def slot (s : Server) : String × Nat :=
  (s.group, s.number.toNat)

theorem slot_eq_iff {a b : Server} : a.slot = b.slot ↔ a.place = b.place := by
  simp [slot, place, UInt32.toNat_inj]

theorem slot_of_identity {a b : Server} (h : a.identity = b.identity) : a.slot = b.slot := by
  have hgroup : a.group = b.group := congrArg Identity.group h
  have hnumber : a.number = b.number := congrArg Identity.number h
  rw [slot, slot, hgroup, hnumber]

theorem id_of_identity {a b : Server} (h : a.identity = b.identity) : a.id = b.id :=
  congrArg Identity.id h

end Server

/-- The store, the numbers and the feed, and the identities of all servers that were ever placed. -/
structure Books where
  store : Store
  numbers : Numbers
  feed : Feed
  placed : List Identity

def Controller.books (c : Controller) (placed : List Identity) : Books where
  store := c.store
  numbers := c.numbers
  feed := c.feed
  placed := placed

inductive Edit where
  | place (s : Server)
  | commit (s : Server) (cause : Cause)
  /-- A launch ends and its record is taken back. -/
  | withdraw (s : Server)
  /-- A launch ends, but its record could not be taken back. -/
  | land (id : ServerId)
  | refresh (s : Server)
  | override (before after : Server)
  | remove (s : Server) (cause : Cause)

namespace Edit

def id : Edit → ServerId
  | .place s => s.id
  | .commit s _ => s.id
  | .withdraw s => s.id
  | .land id => id
  | .refresh s => s.id
  | .override _ after => after.id
  | .remove s _ => s.id

def event? (now : Time.Instant) : Edit → Option FleetEvent
  | .place _ => none
  | .commit s cause => some (.start s cause now)
  | .withdraw _ => none
  | .land _ => none
  | .refresh _ => none
  | .override before after => some (.update before after now)
  | .remove s cause => some (.stop s cause now)

def store (st : Store) : Edit → Store
  | .place s => { st.stored s with launching := s.id :: st.launching }
  | .commit s _ => (st.stored s).endLaunch s.id
  | .withdraw s => (st.without s.id).endLaunch s.id
  | .land id => st.endLaunch id
  | .refresh s => st.stored s
  | .override _ after => st.stored after
  | .remove s _ => st.without s.id

def numbers (n : Numbers) : Edit → Numbers
  | .place s => n.take s.group s.number.toNat
  | .commit _ _ => n
  | .withdraw s => (n.release s.group s.number.toNat).2
  | .land _ => n
  | .refresh _ => n
  | .override _ _ => n
  | .remove s _ => (n.release s.group s.number.toNat).2

def placed : Edit → List Identity
  | .place s => [s.identity]
  | _ => []

def begun? : Edit → Option ServerId
  | .place s => some s.id
  | _ => none

def ended? : Edit → Option ServerId
  | .commit s _ => some s.id
  | .withdraw s => some s.id
  | .land id => some id
  | _ => none

def gone? : Edit → Option ServerId
  | .withdraw s => some s.id
  | .remove s _ => some s.id
  | _ => none

def Fits (b : Books) : Edit → Prop
  | .place s => s.id ∉ b.placed.map Identity.id ∧ s.slot ∉ b.numbers
  | .commit s _ => s.identity ∈ b.placed ∧ s.id ∈ b.store.launching
  | .withdraw s => s ∈ b.store.index ∧ s.id ∈ b.store.launching
  | .land id => id ∈ b.store.launching
  | .refresh s =>
      s.identity ∈ b.placed ∧ s.id ∈ Store.ids b.store.index ∧ s.id ∉ b.store.launching
  | .override before after => before ∈ b.store.index ∧ after.identity = before.identity
  | .remove s _ => s ∈ b.store.index ∧ s.id ∉ b.store.launching

end Edit

namespace Books

def edit (b : Books) (now : Time.Instant) (e : Edit) : Books where
  store := e.store b.store
  numbers := e.numbers b.numbers
  feed := (e.event? now).elim b.feed fun event => b.feed.publish eventTopic event now
  placed := e.placed ++ b.placed

structure Sound (b : Books) : Prop where
  store : b.store.Consistent
  tidy : b.numbers.Tidy
  taken : ∀ p, p ∈ b.numbers ↔ ∃ s ∈ b.store.index, s.slot = p
  placed : ∀ s ∈ b.store.index, s.identity ∈ b.placed
  unique : (b.placed.map Identity.id).Nodup
  launching : ∀ id ∈ b.store.launching, id ∈ Store.ids b.store.index

variable {b : Books} {s : Server}

theorem Sound.identity_eq (h : Sound b) {a a' : Identity} (ha : a ∈ b.placed)
    (ha' : a' ∈ b.placed) (hid : a.id = a'.id) : a = a' :=
  List.inj_on_of_nodup_map h.unique ha ha' hid

theorem Sound.placed_of_ids (h : Sound b) {id : ServerId} (hid : id ∈ Store.ids b.store.index) :
    id ∈ b.placed.map Identity.id := by
  rcases List.mem_map.mp hid with ⟨s, hs, rfl⟩
  exact List.mem_map.mpr ⟨s.identity, h.placed s hs, rfl⟩

theorem Sound.isHeld (h : Sound b) {id : ServerId} (hs : b.store.get? id = some s) :
    b.numbers.isHeld s.group s.number.toNat = true := by
  rw [Numbers.isHeld_iff]
  exact (h.taken s.slot).mpr ⟨s, (Store.mem_of_get? hs).left, rfl⟩

theorem Sound.not_occupied_of_free (h : Sound b) (hfree : s.slot ∉ b.numbers) :
    ¬ b.store.Occupied s := by
  intro hfound
  rcases hfound with ⟨r, hr, _, hplace⟩
  exact hfree ((h.taken s.slot).mpr ⟨r, hr, Server.slot_eq_iff.mpr hplace⟩)

theorem Sound.not_occupied_of_placed (h : Sound b) (hplaced : s.identity ∈ b.placed)
    (hid : s.id ∈ Store.ids b.store.index) : ¬ b.store.Occupied s := by
  rcases List.mem_map.mp hid with ⟨own, hown, hsame⟩
  have hidentity : own.identity = s.identity := h.identity_eq (h.placed own hown) hplaced hsame
  intro hfound
  rcases hfound with ⟨r, hr, hne, hplace⟩
  have hslot : r.place = own.place := by
    rw [hplace, ← Server.slot_eq_iff]
    exact (Server.slot_of_identity hidentity).symm
  exact hne (by rw [h.store.eq_of_place hr hown hslot, hsame])

/-!
# Edits keep the books in order
-/

theorem Sound.place (h : Sound b) (hfresh : s.id ∉ b.placed.map Identity.id)
    (hfree : s.slot ∉ b.numbers) (now : Time.Instant) : Sound (b.edit now (.place s)) where
  store := (h.store.stored (h.not_occupied_of_free hfree)).withLaunching _
  tidy := h.tidy.take s.group s.number.toNat
  taken := by
    intro p
    show p ∈ b.numbers.take s.group s.number.toNat ↔ ∃ r ∈ (b.store.stored s).index, r.slot = p
    rw [Numbers.mem_take, h.taken]
    constructor
    · intro hp
      rcases hp with hp | ⟨r, hr, hp⟩
      · exact ⟨s, Store.mem_stored.mpr (Or.inl rfl), hp.symm⟩
      · have hne : r.id ≠ s.id := by
          intro hid
          exact hfresh (hid ▸ h.placed_of_ids (Store.mem_ids hr))
        exact ⟨r, Store.mem_stored.mpr (Or.inr ⟨hr, hne⟩), hp⟩
    · intro hp
      rcases hp with ⟨r, hr, hp⟩
      rcases Store.mem_stored.mp hr with hr | ⟨hr, _⟩
      · exact Or.inl (hr ▸ hp.symm)
      · exact Or.inr ⟨r, hr, hp⟩
  placed := by
    intro r hr
    rcases Store.mem_stored.mp hr with hr | ⟨hr, _⟩
    · rw [hr]
      exact List.mem_cons_self
    · exact List.mem_cons_of_mem _ (h.placed r hr)
  unique := List.nodup_cons.mpr ⟨hfresh, h.unique⟩
  launching := by
    intro id hid
    apply (Store.ids_stored s id).mpr
    rcases List.mem_cons.mp hid with hid | hid
    · exact Or.inl hid
    · exact Or.inr (h.launching id hid)

theorem Sound.written (h : Sound b) (hplaced : s.identity ∈ b.placed)
    (hid : s.id ∈ Store.ids b.store.index) {launching : List ServerId}
    (hlaunching : ∀ id ∈ launching, id ∈ b.store.launching) (feed : Feed) :
    Sound ⟨{ b.store.stored s with launching }, b.numbers, feed, b.placed⟩ where
  store := (h.store.stored (h.not_occupied_of_placed hplaced hid)).withLaunching launching
  tidy := h.tidy
  taken := by
    intro p
    show p ∈ b.numbers ↔ ∃ r ∈ (b.store.stored s).index, r.slot = p
    rcases List.mem_map.mp hid with ⟨own, hown, hsame⟩
    have hslot : own.slot = s.slot :=
      Server.slot_of_identity (h.identity_eq (h.placed own hown) hplaced hsame)
    rw [h.taken]
    constructor
    · intro hp
      rcases hp with ⟨r, hr, hp⟩
      by_cases hrid : r.id = s.id
      · have hrown : r = own := h.store.eq_of_id hr hown (hrid.trans hsame.symm)
        exact ⟨s, Store.mem_stored.mpr (Or.inl rfl), by rw [← hslot, ← hrown, hp]⟩
      · exact ⟨r, Store.mem_stored.mpr (Or.inr ⟨hr, hrid⟩), hp⟩
    · intro hp
      rcases hp with ⟨r, hr, hp⟩
      rcases Store.mem_stored.mp hr with hr | ⟨hr, _⟩
      · exact ⟨own, hown, by rw [hslot, ← hr, hp]⟩
      · exact ⟨r, hr, hp⟩
  placed := by
    intro r hr
    rcases Store.mem_stored.mp hr with hr | ⟨hr, _⟩
    · exact hr ▸ hplaced
    · exact h.placed r hr
  unique := h.unique
  launching := by
    intro id hmem
    exact (Store.ids_stored s id).mpr (Or.inr (h.launching id (hlaunching id hmem)))

theorem Sound.removed (h : Sound b) (hs : s ∈ b.store.index) {launching : List ServerId}
    (hlaunching : ∀ id ∈ launching, id ∈ b.store.launching ∧ id ≠ s.id) (feed : Feed) :
    Sound ⟨{ b.store.without s.id with launching },
      (b.numbers.release s.group s.number.toNat).2, feed, b.placed⟩ where
  store := (h.store.without s.id).withLaunching launching
  tidy := h.tidy.release s.group s.number.toNat
  taken := by
    intro p
    show p ∈ (b.numbers.release s.group s.number.toNat).2 ↔
      ∃ r ∈ (b.store.without s.id).index, r.slot = p
    rw [Numbers.mem_release, h.taken]
    constructor
    · intro hp
      rcases hp with ⟨⟨r, hr, hp⟩, hne⟩
      refine ⟨r, Store.mem_without.mpr ⟨hr, ?_⟩, hp⟩
      intro hid
      rw [← hp, h.store.eq_of_id hr hs hid] at hne
      exact hne rfl
    · intro hp
      rcases hp with ⟨r, hr, hp⟩
      rcases Store.mem_without.mp hr with ⟨hr, hne⟩
      refine ⟨⟨r, hr, hp⟩, ?_⟩
      intro hslot
      have hplace : r.place = s.place := Server.slot_eq_iff.mp (hp.trans hslot)
      exact hne (h.store.places r hr s hs hplace)
  placed := by
    intro r hr
    exact h.placed r (Store.mem_without.mp hr).left
  unique := h.unique
  launching := by
    intro id hmem
    have hid := hlaunching id hmem
    exact (Store.ids_without s.id id).mpr ⟨h.launching id hid.left, hid.right⟩

theorem Sound.land (h : Sound b) {launching : List ServerId}
    (hlaunching : ∀ id ∈ launching, id ∈ b.store.launching) :
    Sound ⟨{ b.store with launching }, b.numbers, b.feed, b.placed⟩ where
  store := h.store.withLaunching launching
  tidy := h.tidy
  taken := h.taken
  placed := h.placed
  unique := h.unique
  launching := by
    intro id hmem
    exact h.launching id (hlaunching id hmem)

theorem Sound.edit (h : Sound b) (now : Time.Instant) {e : Edit} (he : e.Fits b) :
    Sound (b.edit now e) := by
  cases e with
  | place s =>
      exact h.place he.left he.right now
  | commit s cause =>
      apply h.written he.left (h.launching s.id he.right)
      intro id hid
      exact (Store.mem_endLaunch.mp hid).left
  | withdraw s =>
      apply h.removed he.left
      intro id hid
      exact Store.mem_endLaunch.mp hid
  | land id =>
      apply h.land
      intro id hid
      exact (Store.mem_endLaunch.mp hid).left
  | refresh s =>
      apply h.written he.left he.right.left
      intro id hid
      exact hid
  | override before after =>
      have hplaced : after.identity ∈ b.placed := he.right ▸ h.placed before he.left
      have hid : after.id ∈ Store.ids b.store.index := by
        rw [Server.id_of_identity he.right]
        exact Store.mem_ids he.left
      apply h.written hplaced hid
      intro id hmem
      exact hmem
  | remove s cause =>
      apply h.removed he.left
      intro id hid
      constructor
      · exact hid
      · intro hsame
        exact he.right (hsame ▸ hid)

/-!
# What an edit changes
-/

theorem mem_launching_edit {now : Time.Instant} {e : Edit} {id : ServerId} :
    id ∈ (b.edit now e).store.launching ↔
      e.begun? = some id ∨ id ∈ b.store.launching ∧ e.ended? ≠ some id := by
  cases e with
  | place s =>
      simp [edit, Edit.store, Edit.begun?, Edit.ended?, eq_comm]
  | commit s cause =>
      simp [edit, Edit.store, Edit.begun?, Edit.ended?, Store.mem_endLaunch, Store.stored, eq_comm]
  | withdraw s =>
      simp [edit, Edit.store, Edit.begun?, Edit.ended?, Store.mem_endLaunch, Store.without, eq_comm]
  | land landed =>
      simp [edit, Edit.store, Edit.begun?, Edit.ended?, Store.mem_endLaunch, eq_comm]
  | refresh s =>
      simp [edit, Edit.store, Edit.begun?, Edit.ended?, Store.stored]
  | override before after =>
      simp [edit, Edit.store, Edit.begun?, Edit.ended?, Store.stored]
  | remove s cause =>
      simp [edit, Edit.store, Edit.begun?, Edit.ended?, Store.without]

theorem Sound.mem_ids_edit (h : Sound b) {now : Time.Instant} {e : Edit} (he : e.Fits b)
    {id : ServerId} :
    id ∈ Store.ids (b.edit now e).store.index ↔
      e.begun? = some id ∨ id ∈ Store.ids b.store.index ∧ e.gone? ≠ some id := by
  have hwritten {s : Server} (hs : s.id ∈ Store.ids b.store.index) :
      id ∈ Store.ids (b.store.stored s).index ↔ id ∈ Store.ids b.store.index := by
    rw [Store.ids_stored]
    constructor
    · intro hid
      rcases hid with hid | hid
      · exact hid ▸ hs
      · exact hid
    · exact Or.inr
  cases e with
  | place s =>
      show id ∈ Store.ids (b.store.stored s).index ↔ _
      rw [Store.ids_stored]
      simp [Edit.begun?, Edit.gone?, eq_comm]
  | commit s cause =>
      show id ∈ Store.ids (b.store.stored s).index ↔ _
      rw [hwritten (h.launching s.id he.right)]
      simp [Edit.begun?, Edit.gone?]
  | withdraw s =>
      show id ∈ Store.ids (b.store.without s.id).index ↔ _
      rw [Store.ids_without]
      simp [Edit.begun?, Edit.gone?, eq_comm]
  | land landed =>
      show id ∈ Store.ids b.store.index ↔ _
      simp [Edit.begun?, Edit.gone?]
  | refresh s =>
      show id ∈ Store.ids (b.store.stored s).index ↔ _
      rw [hwritten he.right.left]
      simp [Edit.begun?, Edit.gone?]
  | override before after =>
      show id ∈ Store.ids (b.store.stored after).index ↔ _
      have hafter : after.id ∈ Store.ids b.store.index := by
        rw [Server.id_of_identity he.right]
        exact Store.mem_ids he.left
      rw [hwritten hafter]
      simp [Edit.begun?, Edit.gone?]
  | remove s cause =>
      show id ∈ Store.ids (b.store.without s.id).index ↔ _
      rw [Store.ids_without]
      simp [Edit.begun?, Edit.gone?, eq_comm]

theorem mem_index_edit {now : Time.Instant} {e : Edit} {r : Server} (hne : r.id ≠ e.id) :
    r ∈ (b.edit now e).store.index ↔ r ∈ b.store.index := by
  have hwritten (s : Server) (hs : r.id ≠ s.id) :
      r ∈ (b.store.stored s).index ↔ r ∈ b.store.index := by
    rw [Store.mem_stored]
    constructor
    · intro hr
      rcases hr with hr | hr
      · exact absurd (hr ▸ rfl) hs
      · exact hr.left
    · intro hr
      exact Or.inr ⟨hr, hs⟩
  have hremoved (s : Server) (hs : r.id ≠ s.id) :
      r ∈ (b.store.without s.id).index ↔ r ∈ b.store.index := by
    rw [Store.mem_without]
    exact and_iff_left hs
  cases e with
  | place s =>
      exact hwritten s hne
  | commit s cause =>
      exact hwritten s hne
  | withdraw s =>
      exact hremoved s hne
  | land landed =>
      exact Iff.rfl
  | refresh s =>
      exact hwritten s hne
  | override before after =>
      exact hwritten after hne
  | remove s cause =>
      exact hremoved s hne

/-!
# Sequences of edits
-/

/-- The books go through edits, each of which fits when its turn comes. -/
inductive Edited (now : Time.Instant) : Books → List Edit → Books → Prop where
  | nil (b : Books) : Edited now b [] b
  | cons {b b' : Books} {e : Edit} {es : List Edit} (he : e.Fits b)
      (hes : Edited now (b.edit now e) es b') : Edited now b (e :: es) b'

theorem Edited.single {now : Time.Instant} {e : Edit} (he : e.Fits b) :
    Edited now b [e] (b.edit now e) :=
  .cons he (.nil _)

theorem edited_nil_iff {now : Time.Instant} {b' : Books} : Edited now b [] b' ↔ b' = b := by
  constructor
  · intro h
    cases h
    rfl
  · intro h
    rw [h]
    exact .nil b

theorem edited_single_iff {now : Time.Instant} {e : Edit} {b' : Books} :
    Edited now b [e] b' ↔ e.Fits b ∧ b' = b.edit now e := by
  constructor
  · intro h
    cases h with
    | cons he hes =>
        exact ⟨he, edited_nil_iff.mp hes⟩
  · intro h
    rw [h.right]
    exact .single h.left

theorem Edited.sound {now : Time.Instant} {es : List Edit} {b' : Books}
    (hes : Edited now b es b') (h : Sound b) : Sound b' := by
  induction hes with
  | nil b =>
      exact h
  | cons he _ ih =>
      exact ih (h.edit now he)

theorem Edited.mem_launching {now : Time.Instant} {es : List Edit} {b' : Books}
    (hes : Edited now b es b') (hquiet : ∀ e ∈ es, e.begun? = none ∧ e.ended? = none)
    (id : ServerId) : id ∈ b'.store.launching ↔ id ∈ b.store.launching := by
  induction hes with
  | nil b =>
      exact Iff.rfl
  | @cons b b' e es he _ ih =>
      have hfirst := hquiet e List.mem_cons_self
      rw [ih fun e' he' => hquiet e' (List.mem_cons_of_mem e he'), mem_launching_edit, hfirst.left,
        hfirst.right]
      simp

theorem Edited.get?_eq {now : Time.Instant} {es : List Edit} {b' : Books} (hes : Edited now b es b')
    (h : Sound b) {id : ServerId} (hothers : ∀ e ∈ es, e.id ≠ id) :
    b'.store.get? id = b.store.get? id := by
  induction hes with
  | nil b =>
      rfl
  | @cons b b' e es he _ ih =>
      have hsound := h.edit now he
      rw [ih hsound fun e' he' => hothers e' (List.mem_cons_of_mem e he')]
      apply Option.ext
      intro r
      rw [hsound.store.get?_eq_some_iff, h.store.get?_eq_some_iff]
      constructor
      · intro hr
        have hne : r.id ≠ e.id := hr.right ▸ (hothers e List.mem_cons_self).symm
        exact ⟨(mem_index_edit hne).mp hr.left, hr.right⟩
      · intro hr
        have hne : r.id ≠ e.id := hr.right ▸ (hothers e List.mem_cons_self).symm
        exact ⟨(mem_index_edit hne).mpr hr.left, hr.right⟩

theorem Edited.mem_ids {now : Time.Instant} {es : List Edit} {b' : Books} (hes : Edited now b es b')
    (h : Sound b) (hquiet : ∀ e ∈ es, e.begun? = none) {id : ServerId} :
    id ∈ Store.ids b'.store.index ↔
      id ∈ Store.ids b.store.index ∧ ∀ e ∈ es, e.gone? ≠ some id := by
  induction hes with
  | nil b =>
      simp
  | @cons b b' e es he _ ih =>
      rw [ih (h.edit now he) fun e' he' => hquiet e' (List.mem_cons_of_mem e he'),
        h.mem_ids_edit he, hquiet e List.mem_cons_self, List.forall_mem_cons]
      simp [and_assoc]

theorem mem_placed_edit {now : Time.Instant} {e : Edit} {id : ServerId}
    (hid : id ∈ b.placed.map Identity.id) : id ∈ (b.edit now e).placed.map Identity.id := by
  rw [edit, List.map_append]
  exact List.mem_append_right _ hid

theorem begun_ne_of_placed {e : Edit} (he : e.Fits b) {id : ServerId}
    (hid : id ∈ b.placed.map Identity.id) : e.begun? ≠ some id := by
  intro hbegun
  cases e with
  | place s =>
      rw [← Option.some.inj hbegun] at hid
      exact he.left hid
  | commit _ _ | withdraw _ | land _ | refresh _ | override _ _ | remove _ _ =>
      cases hbegun

theorem Edited.absent {now : Time.Instant} {es : List Edit} {b' : Books} (hes : Edited now b es b')
    (h : Sound b) {id : ServerId} (hplaced : id ∈ b.placed.map Identity.id)
    (habsent : id ∉ Store.ids b.store.index) : id ∉ Store.ids b'.store.index := by
  induction hes with
  | nil b =>
      exact habsent
  | @cons b b' e es he _ ih =>
      refine ih (h.edit now he) (mem_placed_edit hplaced) ?_
      rw [h.mem_ids_edit he]
      intro hmem
      rcases hmem with hbegun | hmem
      · exact begun_ne_of_placed he hplaced hbegun
      · exact habsent hmem.left

theorem Edited.landed {now : Time.Instant} {es : List Edit} {b' : Books} (hes : Edited now b es b')
    {id : ServerId} (hplaced : id ∈ b.placed.map Identity.id) (hlanded : id ∉ b.store.launching) :
    id ∉ b'.store.launching := by
  induction hes with
  | nil b =>
      exact hlanded
  | @cons b b' e es he _ ih =>
      refine ih (mem_placed_edit hplaced) ?_
      rw [mem_launching_edit]
      intro hmem
      rcases hmem with hbegun | hmem
      · exact begun_ne_of_placed he hplaced hbegun
      · exact hlanded hmem.left

theorem Edited.present {now : Time.Instant} {es : List Edit} {b' : Books} (hes : Edited now b es b')
    (h : Sound b) {id : ServerId} (hid : id ∈ Store.ids b.store.index)
    (hlanded : id ∉ b.store.launching) :
    id ∈ Store.ids b'.store.index ∨ ∃ s cause, Edit.remove s cause ∈ es ∧ s.id = id := by
  induction hes with
  | nil b =>
      exact Or.inl hid
  | @cons b b' e es he _ ih =>
      by_cases hgone : e.gone? = some id
      · cases e with
        | withdraw s =>
            have hs : s.id = id := Option.some.inj hgone
            exact absurd (hs ▸ he.right) hlanded
        | remove s cause =>
            exact Or.inr ⟨s, cause, List.mem_cons_self, Option.some.inj hgone⟩
        | place _ | commit _ _ | land _ | refresh _ | override _ _ =>
            cases hgone
      · have hstill : id ∈ Store.ids (b.edit now e).store.index :=
          (h.mem_ids_edit he).mpr (Or.inr ⟨hid, hgone⟩)
        have hlanded' : id ∉ (b.edit now e).store.launching :=
          (Edited.single he).landed (h.placed_of_ids hid) hlanded
        rcases ih (h.edit now he) hstill hlanded' with hmem | ⟨s, cause, hs, hsame⟩
        · exact Or.inl hmem
        · exact Or.inr ⟨s, cause, List.mem_cons_of_mem e hs, hsame⟩

end Books
end ServerFleet
