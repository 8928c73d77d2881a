import ServerFleet.Proofs.Store.Rows

/-!
# The index and the table

A store is consistent if its table is there and holds the rows of the servers of its
index, in whatever order, with no identifier and no place twice.  Each write either
fails and changes neither of the two, or changes both alike.
-/

namespace ServerFleet
namespace Store

/-- The index and the table hold the same servers, each identifier and each place once. -/
structure Consistent (st : Store) : Prop where
  table : st.database.hasServers = true
  rows : st.database.servers.Perm (st.index.map ServerRow.ofServer)
  nodup : (ids st.index).Nodup
  places : ∀ a ∈ st.index, ∀ b ∈ st.index, a.place = b.place → a.id = b.id

def Occupied (st : Store) (s : Server) : Prop :=
  ∃ r ∈ st.index, r.id ≠ s.id ∧ r.place = s.place

def stored (st : Store) (s : Server) : Store :=
  { st with
    database := { st.database with
      servers := Database.putServer (ServerRow.ofServer s) st.database.servers }
    index := put s st.index }

def without (st : Store) (id : ServerId) : Store :=
  { st with
    database := { st.database with
      servers := st.database.servers.filter fun r => r.key != id.text }
    index := st.index.filter fun r => r.id ≠ id }

variable {st st' : Store}

/-!
# Finding servers
-/

theorem mem_of_get? {id : ServerId} {s : Server} (h : st.get? id = some s) :
    s ∈ st.index ∧ s.id = id := by
  constructor
  · exact List.mem_of_find?_eq_some h
  · simpa using List.find?_some h

theorem get?_eq_none_iff {id : ServerId} : st.get? id = none ↔ id ∉ ids st.index := by
  simp [get?, ids]

theorem exists_get?_iff {id : ServerId} : (∃ s, st.get? id = some s) ↔ id ∈ ids st.index := by
  rw [← Option.isSome_iff_exists, ← not_iff_not, Option.not_isSome_iff_eq_none]
  exact get?_eq_none_iff

theorem perm_all (st : Store) : st.all.Perm st.index := by
  rw [all, select, List.filter_true]
  exact List.mergeSort_perm _ _

theorem mem_all {s : Server} : s ∈ st.all ↔ s ∈ st.index := by
  simp [all, select]

theorem mem_byGroup {s : Server} {group : String} :
    s ∈ st.byGroup group ↔ s ∈ st.index ∧ s.group = group := by
  simp [byGroup, select]

theorem mem_byHost {s : Server} {host : HostId} :
    s ∈ st.byHost host ↔ s ∈ st.index ∧ s.hostId = host := by
  simp [byHost, select]

namespace Consistent

theorem eq_of_id (h : Consistent st) {a b : Server} (ha : a ∈ st.index) (hb : b ∈ st.index)
    (hid : a.id = b.id) : a = b :=
  List.inj_on_of_nodup_map h.nodup ha hb hid

theorem eq_of_place (h : Consistent st) {a b : Server} (ha : a ∈ st.index) (hb : b ∈ st.index)
    (hplace : a.place = b.place) : a = b :=
  h.eq_of_id ha hb (h.places a ha b hb hplace)

theorem get?_eq_some_iff (h : Consistent st) {id : ServerId} {s : Server} :
    st.get? id = some s ↔ s ∈ st.index ∧ s.id = id := by
  constructor
  · exact mem_of_get?
  · intro hfound
    rcases hfound with ⟨hs, rfl⟩
    rcases exists_get?_iff.mpr (mem_ids hs) with ⟨r, hr⟩
    rw [hr, h.eq_of_id (mem_of_get? hr).left hs (mem_of_get? hr).right]

theorem byNumber?_eq_some_iff (h : Consistent st) {group : String} {number : Nat} {s : Server} :
    st.byNumber? group number = some s ↔ s ∈ st.byGroup group ∧ s.number.toNat = number := by
  rw [mem_byGroup, byNumber?]
  constructor
  · intro hfind
    have hkeys := List.find?_some hfind
    rw [Bool.and_eq_true, beq_iff_eq, beq_iff_eq] at hkeys
    exact ⟨⟨List.mem_of_find?_eq_some hfind, hkeys.left⟩, hkeys.right⟩
  · intro hfound
    rcases hfound with ⟨⟨hs, rfl⟩, rfl⟩
    cases hfind : st.index.find? fun r =>
        r.group == s.group && r.number.toNat == s.number.toNat with
    | none =>
        have hnone := List.find?_eq_none.mp hfind s hs
        simp at hnone
    | some r =>
        have hkeys := List.find?_some hfind
        rw [Bool.and_eq_true, beq_iff_eq, beq_iff_eq] at hkeys
        have hplace : r.place = s.place := Prod.ext hkeys.left (UInt32.toNat_inj.mp hkeys.right)
        rw [h.eq_of_place (List.mem_of_find?_eq_some hfind) hs hplace]

/-!
# Sorting and loading
-/

theorem sorted_select (h : Consistent st) (p : Server → Bool) :
    (st.select p).Pairwise Server.Before := by
  have hmem {s : Server} (hs : s ∈ st.select p) : s ∈ st.index := by
    rw [select, List.mem_mergeSort] at hs
    exact (List.mem_filter.mp hs).left
  have hnodup : (st.select p).Nodup := by
    rw [select, (List.mergeSort_perm _ _).nodup_iff]
    exact (List.Nodup.of_map Server.id h.nodup).filter p
  have hle : (st.select p).Pairwise fun a b => serverLe a b = true :=
    List.pairwise_mergeSort serverLe_trans serverLe_total _
  apply (hle.and hnodup).imp_of_mem
  intro a b ha hb hab
  apply before_of_serverLe hab.left
  intro hplace
  exact hab.right (h.eq_of_place (hmem ha) (hmem hb) hplace)

theorem sortedServers_eq (h : Consistent st) :
    st.database.sortedServers = st.all.map ServerRow.ofServer := by
  have hmap : st.all.map ServerRow.ofServer =
      (st.index.map ServerRow.ofServer).mergeSort Database.rowLe := by
    rw [all, select, List.filter_true]
    apply List.map_mergeSort
    intro a _ b _
    exact (rowLe_ofServer a b).symm
  rw [hmap, Database.sortedServers]
  have hsorted (rows : List ServerRow) :
      (rows.mergeSort Database.rowLe).Pairwise fun a b => Database.rowLe a b = true := by
    apply List.pairwise_mergeSort
    · intro a b c
      exact Database.rowLe_trans
    · exact Database.rowLe_total
  refine List.Perm.eq_of_pairwise ?_ (hsorted _) (hsorted _) ?_
  · intro a b ha hb hab hba
    rw [List.mem_mergeSort, h.rows.mem_iff] at ha
    rw [List.mem_mergeSort] at hb
    rcases List.mem_map.mp ha with ⟨r, hr, rfl⟩
    rcases List.mem_map.mp hb with ⟨s, hs, rfl⟩
    have hplace : r.place = s.place :=
      ServerRow.place_eq_of_samePlace (Database.samePlace_of_rowLe hab hba)
    rw [h.eq_of_place hr hs hplace]
  · exact ((List.mergeSort_perm _ _).trans h.rows).trans (List.mergeSort_perm _ _).symm

end Consistent

theorem decodeBodies_ofServer (servers : List Server) :
    Database.decodeBodies Server.decode ((servers.map ServerRow.ofServer).map ServerRow.body) =
      .ok servers := by
  induction servers with
  | nil =>
      rfl
  | cons s rest ih =>
      have hbody : Json.decodeText Server.decode (ServerRow.ofServer s).body = .ok s :=
        s.decodeText_toJson
      rw [List.map_cons, List.map_cons, Database.decodeBodies, hbody, ih]
      rfl

theorem Consistent.loadServers_eq (h : Consistent st) :
    st.database.loadServers = .ok st.all := by
  rw [Database.loadServers, if_pos h.table, h.sortedServers_eq, decodeBodies_ofServer]

theorem foldl_put {servers acc : List Server} (h : (ids (acc ++ servers)).Nodup) :
    servers.foldl (fun all s => put s all) acc = acc ++ servers := by
  induction servers generalizing acc with
  | nil =>
      simp
  | cons s rest ih =>
      have hfresh : s.id ∉ ids acc := by
        rw [ids, List.map_append, List.nodup_append] at h
        intro hmem
        exact h.right.right s.id hmem s.id (mem_ids List.mem_cons_self) rfl
      rw [List.foldl_cons, put_of_not_mem hfresh, ih]
      · simp
      · simpa using h

theorem all_loaded (st : Store) : all ⟨st.database, st.all, []⟩ = st.all := by
  rw [all, select, List.filter_true]
  apply List.mergeSort_of_pairwise
  exact List.pairwise_mergeSort serverLe_trans serverLe_total _

namespace Consistent

/-- A store that is loaded again has the same servers, in order, and no launch in flight. -/
theorem load_eq (h : Consistent st) :
    load st.database = .ok ⟨st.database, st.all, []⟩ := by
  have hnodup : (ids st.all).Nodup :=
    (st.perm_all.map Server.id).nodup_iff.mpr h.nodup
  rw [load, h.loadServers_eq]
  simp only
  rw [foldl_put hnodup, List.nil_append]

theorem loaded (h : Consistent st) : Consistent ⟨st.database, st.all, []⟩ where
  table := h.table
  rows := h.rows.trans (st.perm_all.symm.map _)
  nodup := (st.perm_all.map Server.id).nodup_iff.mpr h.nodup
  places := by
    intro a ha b hb
    exact h.places a (mem_all.mp ha) b (mem_all.mp hb)

end Consistent

theorem consistent_empty {db : Database} (htable : db.hasServers = true)
    (hservers : db.servers = []) : Consistent ⟨db, [], []⟩ where
  table := htable
  rows := by
    rw [hservers]
    exact List.Perm.refl _
  nodup := List.nodup_nil
  places := by
    intro a ha
    cases ha

end Store
end ServerFleet
