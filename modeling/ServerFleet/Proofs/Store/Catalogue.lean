import Mathlib.Logic.Function.Basic
import ServerFleet.Proofs.Store.Groups

/-!
# The table of groups as a map

As long as the database refuses nothing, the table of groups is a map from names to
groups: what is stored is found until it is stored anew or deleted, and all groups are
listed in the order of their names.
-/

namespace ServerFleet

abbrev Catalogue := String → Option Group

namespace Database

variable {db db' : Database} {m : Catalogue} {name : String} {g : Group}

/-- A table holds what a map says, each group valid and under its name, and takes every write. -/
structure Represents (db : Database) (m : Catalogue) : Prop where
  table : db.hasGroups = true
  permits : ∀ name, db.refusal (.saveGroup name) = none ∧ db.refusal (.deleteGroup name) = none
  keys : (db.groups.map GroupRow.key).Nodup
  rows : ∀ row ∈ db.groups, ∃ g, Json.decodeText Group.decode row.body = .ok g ∧
    g.validate = .ok () ∧ g.name = row.key ∧ m row.key = some g
  named : ∀ name, m name ≠ none → ∃ row ∈ db.groups, row.key = name

namespace Represents

theorem filed (h : db.Represents m) : GroupRow.Filed db.groups where
  keys := h.keys
  names := by
    intro row hrow g hdecoded
    rcases h.rows row hrow with ⟨found, hfound, _, hname, _⟩
    rw [hdecoded] at hfound
    cases hfound
    exact hname

theorem findGroup_eq (h : db.Represents m) (name : String) : db.findGroup name = .ok (m name) := by
  rw [findGroup, h.table]
  cases hfind : db.groups.find? fun r => r.key == name with
  | none =>
      have habsent : m name = none := by
        by_contra hpresent
        rcases h.named name hpresent with ⟨row, hrow, hkey⟩
        exact List.find?_eq_none.mp hfind row hrow (beq_iff_eq.mpr hkey)
      rw [habsent]
      rfl
  | some row =>
      rcases h.rows row (List.mem_of_find?_eq_some hfind) with ⟨g, hdecoded, _, _, hm⟩
      have hkey : row.key = name := by
        simpa using List.find?_some hfind
      rw [← hkey, hm]
      simp [hdecoded]

end Represents

/-!
# Writing
-/

def withGroup (db : Database) (g : Group) : Database :=
  { db with groups := putGroup (GroupRow.ofGroup g) db.groups }

def withoutGroup (db : Database) (name : String) : Database :=
  { db with groups := db.groups.filter fun r => r.key != name }

namespace Represents

theorem saveGroup_eq (h : db.Represents m) (g : Group) : db.saveGroup g = .ok (db.withGroup g) := by
  rw [saveGroup, withGroup, h.table, permit, (h.permits g.name).left]
  rfl

theorem stored (h : db.Represents m) (hvalid : g.validate = .ok ()) :
    (db.withGroup g).Represents (Function.update m g.name (some g)) where
  table := h.table
  permits := h.permits
  keys := (filed_putGroup h.filed g).keys
  rows := by
    intro row hrow
    rcases mem_putGroup.mp hrow with rfl | ⟨hold, hother⟩
    · exact ⟨g, g.decodeText_toJson, hvalid, rfl, Function.update_self ..⟩
    · rw [Function.update_of_ne (show row.key ≠ g.name from hother)]
      exact h.rows row hold
  named := by
    intro name hname
    by_cases hsame : name = g.name
    · exact ⟨GroupRow.ofGroup g, mem_putGroup.mpr (Or.inl rfl), hsame.symm⟩
    · rw [Function.update_of_ne hsame] at hname
      rcases h.named name hname with ⟨row, hrow, rfl⟩
      exact ⟨row, mem_putGroup.mpr (Or.inr ⟨hrow, hsame⟩), rfl⟩

theorem deleted (h : db.Represents m) (name : String) :
    (db.withoutGroup name).Represents (Function.update m name none) where
  table := h.table
  permits := h.permits
  keys := h.keys.sublist (List.filter_sublist.map GroupRow.key)
  rows := by
    intro row hrow
    rcases List.mem_filter.mp hrow with ⟨hold, hother⟩
    rw [Function.update_of_ne (bne_iff_ne.mp hother)]
    exact h.rows row hold
  named := by
    intro other hname
    by_cases hsame : other = name
    · rw [hsame, Function.update_self] at hname
      exact absurd rfl hname
    · rw [Function.update_of_ne hsame] at hname
      rcases h.named other hname with ⟨row, hrow, rfl⟩
      exact ⟨row, List.mem_filter.mpr ⟨hrow, bne_iff_ne.mpr hsame⟩, rfl⟩

theorem any_key (h : db.Represents m) (name : String) :
    (db.groups.any fun r => r.key == name) = (m name).isSome := by
  rw [Bool.eq_iff_iff, List.any_eq_true, Option.isSome_iff_ne_none]
  constructor
  · rintro ⟨row, hrow, hkey⟩
    rcases h.rows row hrow with ⟨g, _, _, _, hm⟩
    rw [← beq_iff_eq.mp hkey, hm]
    exact Option.some_ne_none g
  · intro hname
    rcases h.named name hname with ⟨row, hrow, hkey⟩
    exact ⟨row, hrow, beq_iff_eq.mpr hkey⟩

theorem deleteGroup_eq (h : db.Represents m) (name : String) :
    db.deleteGroup name =
      if m name = none then .ok (false, db) else .ok (true, db.withoutGroup name) := by
  rw [deleteGroup, withoutGroup, h.table, h.any_key, permit, (h.permits name).right]
  cases m name <;> rfl

/-!
# Listing
-/

theorem loadGroups_eq (h : db.Represents m) :
    ∃ groups, db.loadGroups = .ok groups ∧ groups.Pairwise (fun a b => a.name < b.name) ∧
      ∀ g, g ∈ groups ↔ m g.name = some g := by
  have hperm : db.sortedGroups.Perm db.groups := List.mergeSort_perm _ _
  have hbodies : ∀ body ∈ db.sortedGroups.map GroupRow.body,
      ∃ g, Json.decodeText Group.decode body = .ok g := by
    intro body hbody
    rcases List.mem_map.mp hbody with ⟨row, hrow, rfl⟩
    rcases h.rows row (hperm.mem_iff.mp hrow) with ⟨g, hdecoded, _⟩
    exact ⟨g, hdecoded⟩
  rcases exists_decodeBodies hbodies with ⟨groups, hgroups, hmem⟩
  have hload : db.loadGroups = .ok groups := by
    rw [loadGroups, if_pos h.table, hgroups]
  refine ⟨groups, hload, ?_, ?_⟩
  · rw [← List.pairwise_map]
    exact pairwise_names h.filed hload
  · intro g
    constructor
    · intro hg
      have hfind := findGroup_of_mem h.filed hload hg
      rw [h.findGroup_eq] at hfind
      exact Except.ok.inj hfind
    · intro hg
      rcases h.named g.name (by simp [hg]) with ⟨row, hrow, hkey⟩
      rcases h.rows row hrow with ⟨found, hdecoded, _, _, hm⟩
      rw [hkey, hg] at hm
      cases hm
      exact hmem row.body (List.mem_map_of_mem (hperm.mem_iff.mpr hrow)) g hdecoded

end Represents
end Database
end ServerFleet
