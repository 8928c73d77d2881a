import Mathlib.Data.List.Nodup
import ServerFleet.Proofs.Codec.Record
import ServerFleet.Store.Basic

/-!
# Servers and their rows

The index in memory and the table below it are changed by two functions of the same
shape, and sorted by two orders that are written apart.  A server and its row agree on
all that these look at: the key is the text of the identifier, which reads back.
-/

namespace ServerFleet

def Server.place (s : Server) : String × UInt32 :=
  (s.group, s.number)

def Server.Before (a b : Server) : Prop :=
  a.group < b.group ∨ a.group = b.group ∧ a.number < b.number

namespace ServerRow

theorem key_ofServer (s : Server) : (ofServer s).key = s.id.text :=
  rfl

theorem sameKey_ofServer (s : Server) (id : ServerId) :
    ((ofServer s).key == id.text) = decide (s.id = id) := by
  rw [Bool.eq_iff_iff, beq_iff_eq, decide_eq_true_iff]
  exact Id.text_inj

theorem samePlace_ofServer (a b : Server) :
    ((ofServer a).group == (ofServer b).group && (ofServer a).number == (ofServer b).number) =
      decide (a.place = b.place) := by
  rw [Bool.eq_iff_iff]
  simp [ofServer, Server.place, ← UInt32.toNat_inj]

theorem place_eq_of_samePlace {a b : Server}
    (h : (ofServer a).group = (ofServer b).group ∧ (ofServer a).number = (ofServer b).number) :
    a.place = b.place := by
  have hplace := samePlace_ofServer a b
  rw [h.left, h.right, beq_self_eq_true, beq_self_eq_true] at hplace
  exact of_decide_eq_true hplace.symm

end ServerRow

/-!
# The two orders
-/

namespace Database

theorem rowLe_iff {a b : ServerRow} :
    rowLe a b = true ↔ a.group < b.group ∨ a.group = b.group ∧ a.number ≤ b.number := by
  simp [rowLe]

theorem rowLe_trans {a b c : ServerRow} (hab : rowLe a b = true) (hbc : rowLe b c = true) :
    rowLe a c = true := by
  rw [rowLe_iff] at hab hbc ⊢
  rcases hab with hab | ⟨hab, hnab⟩
  · rcases hbc with hbc | ⟨hbc, _⟩
    · exact Or.inl (String.lt_trans hab hbc)
    · exact Or.inl (hbc ▸ hab)
  · rcases hbc with hbc | ⟨hbc, hnbc⟩
    · exact Or.inl (hab ▸ hbc)
    · exact Or.inr ⟨hab.trans hbc, Int.le_trans hnab hnbc⟩

theorem rowLe_total (a b : ServerRow) : (rowLe a b || rowLe b a) = true := by
  rw [Bool.or_eq_true, rowLe_iff, rowLe_iff]
  by_cases hab : a.group < b.group
  · exact Or.inl (Or.inl hab)
  · by_cases hba : b.group < a.group
    · exact Or.inr (Or.inl hba)
    · have hgroup : a.group = b.group :=
        String.le_antisymm (String.not_lt.mp hba) (String.not_lt.mp hab)
      rcases Int.le_total a.number b.number with hle | hle
      · exact Or.inl (Or.inr ⟨hgroup, hle⟩)
      · exact Or.inr (Or.inr ⟨hgroup.symm, hle⟩)

theorem samePlace_of_rowLe {a b : ServerRow} (hab : rowLe a b = true) (hba : rowLe b a = true) :
    a.group = b.group ∧ a.number = b.number := by
  rw [rowLe_iff] at hab hba
  rcases hab with hab | ⟨hab, hnab⟩
  · rcases hba with hba | ⟨hba, _⟩
    · exact absurd (String.lt_trans hab hba) (String.lt_irrefl _)
    · exact absurd (hba ▸ hab) (String.lt_irrefl _)
  · rcases hba with hba | ⟨_, hnba⟩
    · exact absurd (hab ▸ hba) (String.lt_irrefl _)
    · exact ⟨hab, Int.le_antisymm hnab hnba⟩

end Database

namespace Store

theorem serverLe_iff {a b : Server} :
    serverLe a b = true ↔ a.group < b.group ∨ a.group = b.group ∧ a.number ≤ b.number := by
  simp [serverLe]

theorem rowLe_ofServer (a b : Server) :
    Database.rowLe (ServerRow.ofServer a) (ServerRow.ofServer b) = serverLe a b := by
  rw [Bool.eq_iff_iff, Database.rowLe_iff, serverLe_iff, UInt32.le_iff_toNat_le]
  simp only [ServerRow.ofServer, Int.ofNat_le]

theorem serverLe_trans (a b c : Server) (hab : serverLe a b = true) (hbc : serverLe b c = true) :
    serverLe a c = true := by
  rw [← rowLe_ofServer] at hab hbc ⊢
  exact Database.rowLe_trans hab hbc

theorem serverLe_total (a b : Server) : (serverLe a b || serverLe b a) = true := by
  rw [← rowLe_ofServer, ← rowLe_ofServer]
  exact Database.rowLe_total _ _

theorem before_of_serverLe {a b : Server} (hle : serverLe a b = true) (hplace : a.place ≠ b.place) :
    a.Before b := by
  rcases serverLe_iff.mp hle with hless | ⟨hgroup, hnumber⟩
  · exact Or.inl hless
  · refine Or.inr ⟨hgroup, ?_⟩
    rcases UInt32.lt_or_eq_of_le hnumber with hless | heq
    · exact hless
    · exact absurd (Prod.ext hgroup heq) hplace

/-!
# The two ways to put and to drop
-/

def ids (servers : List Server) : List ServerId :=
  servers.map Server.id

theorem mem_ids {servers : List Server} {s : Server} (h : s ∈ servers) : s.id ∈ ids servers :=
  List.mem_map.mpr ⟨s, h, rfl⟩

theorem put_of_mem {s : Server} {servers : List Server} (h : s.id ∈ ids servers) :
    put s servers = servers.map fun r => if r.id = s.id then s else r := by
  rw [put, if_pos]
  simpa [ids] using h

theorem put_of_not_mem {s : Server} {servers : List Server} (h : s.id ∉ ids servers) :
    put s servers = servers ++ [s] := by
  rw [put, if_neg]
  simpa [ids] using h

theorem mem_put {s r : Server} {servers : List Server} :
    r ∈ put s servers ↔ r = s ∨ r ∈ servers ∧ r.id ≠ s.id := by
  by_cases h : s.id ∈ ids servers
  · rw [put_of_mem h, List.mem_map]
    constructor
    · intro hfound
      rcases hfound with ⟨x, hx, rfl⟩
      by_cases hid : x.id = s.id
      · simp [hid]
      · simp [hid, hx]
    · intro hcase
      rcases hcase with rfl | ⟨hr, hid⟩
      · rcases List.mem_map.mp h with ⟨x, hx, hid⟩
        exact ⟨x, hx, if_pos hid⟩
      · exact ⟨r, hr, if_neg hid⟩
  · rw [put_of_not_mem h, List.mem_append, List.mem_singleton]
    constructor
    · intro hcase
      rcases hcase with hr | rfl
      · refine Or.inr ⟨hr, ?_⟩
        intro hid
        exact h (hid ▸ mem_ids hr)
      · exact Or.inl rfl
    · intro hcase
      rcases hcase with rfl | ⟨hr, _⟩
      · exact Or.inr rfl
      · exact Or.inl hr

theorem ids_put_of_mem {s : Server} {servers : List Server} (h : s.id ∈ ids servers) :
    ids (put s servers) = ids servers := by
  rw [put_of_mem h, ids, ids, List.map_map]
  apply List.map_congr_left
  intro r _
  by_cases hid : r.id = s.id
  · simp [hid]
  · simp [hid]

theorem nodup_ids_put {s : Server} {servers : List Server} (h : (ids servers).Nodup) :
    (ids (put s servers)).Nodup := by
  by_cases hmem : s.id ∈ ids servers
  · rw [ids_put_of_mem hmem]
    exact h
  · rw [put_of_not_mem hmem, ids, List.map_append]
    exact List.Nodup.append h (List.nodup_singleton _) (by simpa [ids] using hmem)

theorem map_ofServer_put (s : Server) (servers : List Server) :
    (put s servers).map ServerRow.ofServer =
      Database.putServer (ServerRow.ofServer s) (servers.map ServerRow.ofServer) := by
  have hany : ((servers.map ServerRow.ofServer).any fun r => r.key == (ServerRow.ofServer s).key) =
      servers.any fun r => r.id = s.id := by
    simp only [List.any_map, Function.comp_def, ServerRow.key_ofServer s,
      ServerRow.sameKey_ofServer]
  rw [put, Database.putServer, hany]
  split
  · simp only [List.map_map, Function.comp_def, apply_ite, ServerRow.key_ofServer s,
      ServerRow.sameKey_ofServer, decide_eq_true_eq]
  · rw [List.map_append, List.map_singleton]

theorem putServer_perm {rows rows' : List ServerRow} (row : ServerRow) (h : rows.Perm rows') :
    (Database.putServer row rows).Perm (Database.putServer row rows') := by
  rw [Database.putServer, Database.putServer, h.any_eq]
  split
  · exact h.map _
  · exact h.append_right _

theorem map_ofServer_filter (id : ServerId) (servers : List Server) :
    (servers.filter fun r => r.id ≠ id).map ServerRow.ofServer =
      (servers.map ServerRow.ofServer).filter fun r => r.key != id.text := by
  simp only [List.filter_map, Function.comp_def, bne, ServerRow.sameKey_ofServer, ne_eq,
    decide_not]

end Store
end ServerFleet
