import ServerFleet.Proofs.Fleet.Books

/-!
# Coming up anew

A controller that comes up over the database of another one has the same servers and
holds the same numbers, and no launch is in flight.
-/

namespace ServerFleet

namespace Numbers

def reserveAll (n : Numbers) (servers : List Server) : Numbers :=
  servers.foldl (fun n s => (n.reserve s.group s.number.toNat).2) n

theorem mem_reserveAll {n : Numbers} {servers : List Server} {p : String × Nat} :
    p ∈ n.reserveAll servers ↔ p ∈ n ∨ ∃ s ∈ servers, s.slot = p := by
  induction servers generalizing n with
  | nil =>
      simp [reserveAll]
  | cons s rest ih =>
      rw [reserveAll, List.foldl_cons, ← reserveAll, ih, reserve, mem_take, List.exists_mem_cons_iff]
      rw [show (p = (s.group, s.number.toNat)) = (s.slot = p) from propext eq_comm]
      tauto

theorem Tidy.reserveAll {n : Numbers} (h : n.Tidy) (servers : List Server) :
    (n.reserveAll servers).Tidy := by
  induction servers generalizing n with
  | nil =>
      exact h
  | cons s rest ih =>
      exact ih (h.take s.group s.number.toNat)

end Numbers

namespace Controller

def recovered (settings : ControlSettings) (st : Store) : Controller where
  settings := settings
  store := ⟨st.database, st.all, []⟩
  numbers := Numbers.empty.reserveAll st.all
  hosts := []
  feed := .empty

variable {c : Controller} {placed : List Identity}

theorem assemble_eq (h : (c.books placed).Sound) (settings : ControlSettings) :
    assemble settings c.store.database = .ok (recovered settings c.store) := by
  have hstore : c.store.Consistent := h.store
  rw [assemble, hstore.load_eq]
  simp only [Store.all_loaded]
  rfl

theorem sound_recovered (h : (c.books placed).Sound) (settings : ControlSettings) :
    ((recovered settings c.store).books placed).Sound where
  store := h.store.loaded
  tidy := Numbers.Tidy.empty.reserveAll c.store.all
  taken := by
    intro p
    show p ∈ Numbers.empty.reserveAll c.store.all ↔ ∃ s ∈ c.store.all, s.slot = p
    rw [Numbers.mem_reserveAll]
    constructor
    · intro hp
      rcases hp with hp | hp
      · exact (Numbers.not_mem_empty p hp).elim
      · exact hp
    · exact Or.inr
  placed := by
    intro s hs
    exact h.placed s (Store.mem_all.mp hs)
  unique := h.unique
  launching := by
    intro id hid
    cases hid

theorem get?_recovered (h : (c.books placed).Sound) (settings : ControlSettings) (id : ServerId) :
    (recovered settings c.store).store.get? id = c.store.get? id := by
  have hstore : c.store.Consistent := h.store
  have hrecovered : (recovered settings c.store).store.Consistent := (sound_recovered h settings).store
  apply Option.ext
  intro s
  rw [hrecovered.get?_eq_some_iff, hstore.get?_eq_some_iff]
  exact and_congr_left fun _ => Store.mem_all

theorem held_recovered (h : (c.books placed).Sound) (settings : ControlSettings) (group : String) :
    (recovered settings c.store).numbers.held group = c.numbers.held group := by
  have h' := sound_recovered h settings
  apply Numbers.held_congr h'.tidy h.tidy
  intro p
  exact (h'.taken p).trans ((exists_congr fun s => and_congr_left fun _ => Store.mem_all).trans
    (h.taken p).symm)

end Controller
end ServerFleet
