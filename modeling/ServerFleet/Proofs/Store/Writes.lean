import ServerFleet.Proofs.Store.Consistency

/-!
# Writes to the store

What a write can come to.  It fails because the database refuses it or because the
place is taken by another server, and then leaves everything as it was; or it
changes the index and the table alike.
-/

namespace ServerFleet
namespace Store

variable {st st' : Store} {s : Server} {id : ServerId}

/-!
# The outcomes of each write
-/

theorem Consistent.clashes_iff (h : Consistent st) :
    st.database.clashes (ServerRow.ofServer s) = true ↔ st.Occupied s := by
  have hrow (r : Server) :
      ((ServerRow.ofServer r).key != (ServerRow.ofServer s).key &&
          (ServerRow.ofServer r).group == (ServerRow.ofServer s).group &&
          (ServerRow.ofServer r).number == (ServerRow.ofServer s).number) =
        decide (r.id ≠ s.id ∧ r.place = s.place) := by
    rw [Bool.and_assoc, ServerRow.samePlace_ofServer, bne, ServerRow.key_ofServer s,
      ServerRow.sameKey_ofServer, Bool.decide_and, decide_not]
  rw [Database.clashes, h.rows.any_eq, List.any_map]
  simp only [Function.comp_def, hrow, List.any_eq_true, decide_eq_true_eq]
  rfl

theorem Consistent.save_eq (h : Consistent st) (s : Server) [Decidable (st.Occupied s)] :
    st.save s =
      match st.database.refusal (.saveServer s.id.text) with
      | some reason => .error (.refused reason)
      | none => if st.Occupied s then .error .numberTaken else .ok (st.stored s) := by
  rw [save, Database.saveServer]
  simp only [h.table, Bool.not_true, Bool.false_eq_true, if_false, Database.permit,
    ServerRow.key_ofServer, h.clashes_iff]
  cases st.database.refusal (.saveServer s.id.text) with
  | some reason =>
      rfl
  | none =>
      by_cases hplace : st.Occupied s
      · simp only [if_pos hplace]
      · simp only [if_neg hplace, stored, h.table]

theorem Consistent.save_eq_ok_iff (h : Consistent st) :
    st.save s = .ok st' ↔
      st.database.refusal (.saveServer s.id.text) = none ∧ ¬ st.Occupied s ∧
        st' = st.stored s := by
  classical
  rw [h.save_eq]
  cases st.database.refusal (.saveServer s.id.text) with
  | some reason =>
      simp
  | none =>
      by_cases hplace : st.Occupied s
      · simp [hplace]
      · simp [hplace, eq_comm]

theorem Consistent.save_eq_error_iff (h : Consistent st) {e : StoreError} :
    st.save s = .error e ↔
      (∃ reason, st.database.refusal (.saveServer s.id.text) = some reason ∧
        e = .refused reason) ∨
      st.database.refusal (.saveServer s.id.text) = none ∧ st.Occupied s ∧
        e = .numberTaken := by
  classical
  rw [h.save_eq]
  cases st.database.refusal (.saveServer s.id.text) with
  | some reason =>
      simp [eq_comm]
  | none =>
      by_cases hplace : st.Occupied s
      · simp [hplace, eq_comm]
      · simp [hplace]

theorem replace_eq (st : Store) (s : Server) [Decidable (s.id ∈ ids st.index)] :
    st.replace s = if s.id ∈ ids st.index then (st.save s).map some else .ok none := by
  rw [replace]
  split
  next hnone =>
    rw [if_neg (get?_eq_none_iff.mp hnone)]
  next hsome =>
    rw [if_pos (exists_get?_iff.mp ⟨_, hsome⟩)]

theorem replace_eq_none_iff : st.replace s = .ok none ↔ s.id ∉ ids st.index := by
  classical
  rw [replace_eq]
  split
  next hmem =>
    cases st.save s <;> simp [Except.map, hmem]
  next hmem =>
    simp [hmem]

theorem replace_eq_some_iff :
    st.replace s = .ok (some st') ↔ s.id ∈ ids st.index ∧ st.save s = .ok st' := by
  classical
  rw [replace_eq]
  split
  next hmem =>
    cases st.save s <;> simp [Except.map, hmem]
  next hmem =>
    simp [hmem]

theorem replace_eq_error_iff {e : StoreError} :
    st.replace s = .error e ↔ s.id ∈ ids st.index ∧ st.save s = .error e := by
  classical
  rw [replace_eq]
  split
  next hmem =>
    cases st.save s <;> simp [Except.map, hmem]
  next hmem =>
    simp [hmem]

theorem Consistent.deleteServer_eq (h : Consistent st) (hmem : id ∈ ids st.index) :
    st.database.deleteServer id =
      match st.database.refusal (.deleteServer id.text) with
      | some reason => .error (.refused reason)
      | none => .ok (st.without id).database := by
  have hfound : (st.database.servers.any fun r => r.key == id.text) = true := by
    rcases List.mem_map.mp hmem with ⟨r, hr, rfl⟩
    rw [h.rows.any_eq, List.any_map, List.any_eq_true]
    exact ⟨r, hr, by simp [ServerRow.key_ofServer]⟩
  rw [Database.deleteServer]
  simp only [h.table, Bool.not_true, Bool.false_eq_true, if_false, hfound, if_true,
    Database.permit]
  cases st.database.refusal (.deleteServer id.text) with
  | some reason =>
      rfl
  | none =>
      simp only [without, h.table]

theorem Consistent.remove_eq (h : Consistent st) (id : ServerId) :
    st.remove id =
      match st.get? id with
      | none => .ok none
      | some s =>
          match st.database.refusal (.deleteServer id.text) with
          | some reason => .error (.refused reason)
          | none => .ok (some (s, st.without id)) := by
  rw [remove]
  cases hget : st.get? id with
  | none =>
      rfl
  | some s =>
      have hmem : id ∈ ids st.index := exists_get?_iff.mp ⟨s, hget⟩
      simp only [h.deleteServer_eq hmem]
      cases st.database.refusal (.deleteServer id.text) with
      | some reason =>
          rfl
      | none =>
          rfl

theorem Consistent.remove_eq_none_iff (h : Consistent st) :
    st.remove id = .ok none ↔ id ∉ ids st.index := by
  rw [h.remove_eq, ← get?_eq_none_iff]
  cases st.get? id with
  | none =>
      simp
  | some s =>
      cases st.database.refusal (.deleteServer id.text) with
      | some reason =>
          simp
      | none =>
          simp

theorem Consistent.remove_eq_some_iff (h : Consistent st) :
    st.remove id = .ok (some (s, st')) ↔
      st.get? id = some s ∧ st.database.refusal (.deleteServer id.text) = none ∧
        st' = st.without id := by
  rw [h.remove_eq]
  cases st.get? id with
  | none =>
      simp
  | some r =>
      cases st.database.refusal (.deleteServer id.text) with
      | some reason =>
          simp
      | none =>
          simp [eq_comm]

theorem Consistent.remove_eq_error_iff (h : Consistent st) {e : StoreError} :
    st.remove id = .error e ↔
      id ∈ ids st.index ∧ ∃ reason, st.database.refusal (.deleteServer id.text) = some reason ∧
        e = .refused reason := by
  rw [h.remove_eq, ← exists_get?_iff]
  cases st.get? id with
  | none =>
      simp
  | some s =>
      cases st.database.refusal (.deleteServer id.text) with
      | some reason =>
          simp [eq_comm]
      | none =>
          simp

/-!
# What a write changes
-/

theorem mem_stored {r : Server} :
    r ∈ (st.stored s).index ↔ r = s ∨ r ∈ st.index ∧ r.id ≠ s.id :=
  mem_put

theorem mem_without {r : Server} :
    r ∈ (st.without id).index ↔ r ∈ st.index ∧ r.id ≠ id := by
  simp [without]

namespace Consistent

theorem stored (h : Consistent st) (hplace : ¬ st.Occupied s) : Consistent (st.stored s) where
  table := h.table
  rows := by
    show (Database.putServer _ _).Perm ((put s st.index).map ServerRow.ofServer)
    rw [map_ofServer_put]
    exact putServer_perm _ h.rows
  nodup := nodup_ids_put h.nodup
  places := by
    intro a ha b hb hab
    rcases mem_stored.mp ha with ha' | ⟨ha', hida⟩
    · rcases mem_stored.mp hb with hb' | ⟨hb', hidb⟩
      · rw [ha', hb']
      · exact absurd ⟨b, hb', hidb, ha' ▸ hab.symm⟩ hplace
    · rcases mem_stored.mp hb with hb' | ⟨hb', _⟩
      · exact absurd ⟨a, ha', hida, hb' ▸ hab⟩ hplace
      · exact h.places a ha' b hb' hab

theorem without (h : Consistent st) (id : ServerId) : Consistent (st.without id) where
  table := h.table
  rows := by
    show (List.filter _ _).Perm ((st.index.filter fun r => r.id ≠ id).map ServerRow.ofServer)
    rw [map_ofServer_filter]
    exact h.rows.filter _
  nodup := h.nodup.sublist (List.filter_sublist.map Server.id)
  places := by
    intro a ha b hb
    exact h.places a (mem_without.mp ha).left b (mem_without.mp hb).left

theorem get?_stored (h : Consistent st) (hplace : ¬ st.Occupied s) (id : ServerId) :
    (st.stored s).get? id = if id = s.id then some s else st.get? id := by
  apply Option.ext
  intro r
  rw [(h.stored hplace).get?_eq_some_iff, mem_stored]
  split
  next hid =>
    subst hid
    simp only [Option.some.injEq]
    constructor
    · intro hfound
      rcases hfound with ⟨rfl | ⟨_, hne⟩, hid⟩
      · rfl
      · exact absurd hid hne
    · intro hsame
      subst hsame
      exact ⟨Or.inl rfl, rfl⟩
  next hid =>
    rw [h.get?_eq_some_iff]
    constructor
    · intro hfound
      rcases hfound with ⟨rfl | ⟨hr, _⟩, rfl⟩
      · exact absurd rfl hid
      · exact ⟨hr, rfl⟩
    · intro hfound
      rcases hfound with ⟨hr, rfl⟩
      exact ⟨Or.inr ⟨hr, hid⟩, rfl⟩

theorem get?_without (h : Consistent st) (gone id : ServerId) :
    (st.without gone).get? id = if id = gone then none else st.get? id := by
  apply Option.ext
  intro r
  rw [(h.without gone).get?_eq_some_iff, mem_without]
  split
  next hid =>
    subst hid
    constructor
    · intro hfound
      rcases hfound with ⟨⟨_, hne⟩, hid⟩
      exact absurd hid hne
    · intro hnone
      cases hnone
  next hid =>
    rw [h.get?_eq_some_iff]
    constructor
    · intro hfound
      rcases hfound with ⟨⟨hr, _⟩, hrid⟩
      exact ⟨hr, hrid⟩
    · intro hfound
      rcases hfound with ⟨hr, rfl⟩
      exact ⟨⟨hr, hid⟩, rfl⟩

end Consistent

theorem ids_stored (s : Server) (id : ServerId) :
    id ∈ ids (st.stored s).index ↔ id = s.id ∨ id ∈ ids st.index := by
  constructor
  · intro h
    rcases List.mem_map.mp h with ⟨r, hr, rfl⟩
    rcases mem_stored.mp hr with rfl | ⟨hr, _⟩
    · exact Or.inl rfl
    · exact Or.inr (mem_ids hr)
  · intro hcase
    rcases hcase with rfl | h
    · exact mem_ids (mem_stored.mpr (Or.inl rfl))
    · rcases List.mem_map.mp h with ⟨r, hr, rfl⟩
      by_cases hid : r.id = s.id
      · rw [hid]
        exact mem_ids (mem_stored.mpr (Or.inl rfl))
      · exact mem_ids (mem_stored.mpr (Or.inr ⟨hr, hid⟩))

theorem ids_without (gone id : ServerId) :
    id ∈ ids (st.without gone).index ↔ id ∈ ids st.index ∧ id ≠ gone := by
  constructor
  · intro h
    rcases List.mem_map.mp h with ⟨r, hr, rfl⟩
    exact ⟨mem_ids (mem_without.mp hr).left, (mem_without.mp hr).right⟩
  · intro hfound
    rcases hfound with ⟨h, hne⟩
    rcases List.mem_map.mp h with ⟨r, hr, rfl⟩
    exact mem_ids (mem_without.mpr ⟨hr, hne⟩)

/-!
# The index beside the table
-/

structure Lacks (st : Store) (id : ServerId) : Prop where
  index : st.get? id = none
  table : ∀ row ∈ st.database.servers, row.key ≠ id.text

theorem Consistent.lacks (h : st.Consistent) (hid : id ∉ ids st.index) : st.Lacks id where
  index := get?_eq_none_iff.mpr hid
  table := by
    intro row hrow hkey
    rw [h.rows.mem_iff] at hrow
    rcases List.mem_map.mp hrow with ⟨r, hr, rfl⟩
    rw [ServerRow.key_ofServer, Id.text_inj] at hkey
    exact hid (hkey ▸ mem_ids hr)

theorem Consistent.mem_rows (h : st.Consistent) (hs : s ∈ st.index) :
    ServerRow.ofServer s ∈ st.database.servers := by
  rw [h.rows.mem_iff]
  exact List.mem_map.mpr ⟨s, hs, rfl⟩

theorem Consistent.without_stored (h : st.Consistent) (hs : s.id ∉ ids st.index) :
    (st.stored s).without s.id = st := by
  have hlacks := h.lacks hs
  have hindex : (put s st.index).filter (fun r => decide (r.id ≠ s.id)) = st.index := by
    rw [put_of_not_mem hs, List.filter_append, List.filter_singleton]
    simp only [ne_eq, not_true_eq_false, decide_false, Bool.cond_false, List.append_nil,
      List.filter_eq_self]
    intro r hr
    rw [decide_eq_true_iff]
    intro hid
    exact hs (hid ▸ mem_ids hr)
  have htable : (Database.putServer (ServerRow.ofServer s) st.database.servers).filter
      (fun row => row.key != s.id.text) = st.database.servers := by
    have hnew : ¬ (st.database.servers.any fun row => row.key == (ServerRow.ofServer s).key) = true := by
      rw [List.any_eq_true]
      intro hfound
      rcases hfound with ⟨row, hrow, hkey⟩
      exact hlacks.table row hrow (beq_iff_eq.mp hkey)
    rw [Database.putServer, if_neg hnew, List.filter_append, List.filter_singleton]
    simp only [ServerRow.key_ofServer, bne_self_eq_false, Bool.cond_false, List.append_nil,
      List.filter_eq_self]
    intro row hrow
    exact bne_iff_ne.mpr (hlacks.table row hrow)
  rw [Store.stored, Store.without]
  simp only [hindex, htable]

/-!
# Launches
-/

theorem Consistent.withLaunching (h : Consistent st) (launching : List ServerId) :
    Consistent { st with launching } where
  table := h.table
  rows := h.rows
  nodup := h.nodup
  places := h.places

theorem mem_endLaunch {landed id : ServerId} :
    id ∈ (st.endLaunch landed).launching ↔ id ∈ st.launching ∧ id ≠ landed := by
  simp [endLaunch]

theorem isLaunching_iff : st.isLaunching id = true ↔ id ∈ st.launching := by
  simp [isLaunching]

theorem beginLaunch_of_not_mem (h : id ∉ st.launching) :
    st.beginLaunch id = { st with launching := id :: st.launching } := by
  rw [beginLaunch, if_neg]
  simpa using h

theorem endLaunch_beginLaunch (h : id ∉ st.launching) :
    (st.beginLaunch id).endLaunch id = st := by
  have hfilter : (id :: st.launching).filter (fun x => decide (x ≠ id)) = st.launching := by
    rw [List.filter_cons_of_neg (by simp), List.filter_eq_self]
    intro x hx
    rw [decide_eq_true_iff]
    intro hsame
    subst hsame
    exact h hx
  rw [beginLaunch_of_not_mem h, endLaunch, hfilter]

end Store
end ServerFleet
