import Mathlib.Data.List.Nodup
import ServerFleet.Proofs.Codec.Record
import ServerFleet.Store.Database

/-!
# The table of groups

Groups are filed under their names.  So it is when a group is stored or deleted, and as
long as it is, the loaded groups have different names and each of them is found under
its own.
-/

namespace ServerFleet

/-- Every group is filed under its name, and there is one row at most for a name. -/
structure GroupRow.Filed (rows : List GroupRow) : Prop where
  keys : (rows.map GroupRow.key).Nodup
  names : ∀ row ∈ rows, ∀ g, Json.decodeText Group.decode row.body = .ok g → g.name = row.key

namespace Database

variable {db db' : Database} {name : String} {g : Group} {groups : List Group}

theorem decodeBodies_cons_eq_ok_iff {α : Type} {decode : Json.Decoder α} {body : String}
    {bodies : List String} {records : List α} :
    decodeBodies decode (body :: bodies) = .ok records ↔ ∃ first later,
      Json.decodeText decode body = .ok first ∧ decodeBodies decode bodies = .ok later ∧
        records = first :: later := by
  rw [decodeBodies]
  cases Json.decodeText decode body with
  | error e =>
      simp
  | ok first =>
      cases decodeBodies decode bodies with
      | error e =>
          simp [Except.map]
      | ok later =>
          simp [Except.map, eq_comm]

theorem mem_decodeBodies {α : Type} {decode : Json.Decoder α} {bodies : List String} {records : List α}
    (h : decodeBodies decode bodies = .ok records) {a : α} (ha : a ∈ records) :
    ∃ body ∈ bodies, Json.decodeText decode body = .ok a := by
  induction bodies generalizing records with
  | nil =>
      cases h
      cases ha
  | cons body rest ih =>
      rcases decodeBodies_cons_eq_ok_iff.mp h with ⟨first, later, hfirst, hlater, rfl⟩
      rcases List.mem_cons.mp ha with rfl | ha
      · exact ⟨body, List.mem_cons_self, hfirst⟩
      · rcases ih hlater ha with ⟨found, hfound, hdecoded⟩
        exact ⟨found, List.mem_cons_of_mem body hfound, hdecoded⟩

theorem exists_decodeBodies {α : Type} {decode : Json.Decoder α} {bodies : List String}
    (h : ∀ body ∈ bodies, ∃ a, Json.decodeText decode body = .ok a) :
    ∃ records, decodeBodies decode bodies = .ok records ∧
      ∀ body ∈ bodies, ∀ a, Json.decodeText decode body = .ok a → a ∈ records := by
  induction bodies with
  | nil =>
      exact ⟨[], rfl, fun body hbody => nomatch hbody⟩
  | cons body rest ih =>
      rcases h body List.mem_cons_self with ⟨first, hfirst⟩
      rcases ih fun b hb => h b (List.mem_cons_of_mem body hb) with ⟨later, hlater, hmem⟩
      refine ⟨first :: later, decodeBodies_cons_eq_ok_iff.mpr ⟨first, later, hfirst, hlater, rfl⟩, ?_⟩
      intro b hb a hdecoded
      rcases List.mem_cons.mp hb with rfl | hb
      · rw [hfirst] at hdecoded
        cases hdecoded
        exact List.mem_cons_self
      · exact List.mem_cons_of_mem first (hmem b hb a hdecoded)

theorem names_decodeBodies {rows : List GroupRow}
    (hnames : ∀ row ∈ rows, ∀ g, Json.decodeText Group.decode row.body = .ok g → g.name = row.key)
    (h : decodeBodies Group.decode (rows.map GroupRow.body) = .ok groups) :
    groups.map Group.name = rows.map GroupRow.key := by
  induction rows generalizing groups with
  | nil =>
      cases h
      rfl
  | cons row rest ih =>
      rcases decodeBodies_cons_eq_ok_iff.mp h with ⟨first, later, hfirst, hlater, rfl⟩
      rw [List.map_cons, List.map_cons, hnames row List.mem_cons_self first hfirst,
        ih (fun r hr => hnames r (List.mem_cons_of_mem row hr)) hlater]

theorem loadGroups_eq (h : db.loadGroups = .ok groups) :
    db.hasGroups = true ∧ decodeBodies Group.decode (db.sortedGroups.map GroupRow.body) = .ok groups := by
  rw [loadGroups] at h
  split at h
  next htable =>
    exact ⟨htable, h⟩
  next =>
    cases h

theorem map_name_loadGroups (hfiled : GroupRow.Filed db.groups) (h : db.loadGroups = .ok groups) :
    groups.map Group.name = db.sortedGroups.map GroupRow.key := by
  have hperm : db.sortedGroups.Perm db.groups := List.mergeSort_perm _ _
  have hnames : ∀ row ∈ db.sortedGroups, ∀ g,
      Json.decodeText Group.decode row.body = .ok g → g.name = row.key := by
    intro row hrow
    exact hfiled.names row (hperm.mem_iff.mp hrow)
  exact names_decodeBodies hnames (loadGroups_eq h).right

theorem nodup_names (hfiled : GroupRow.Filed db.groups) (h : db.loadGroups = .ok groups) :
    (groups.map Group.name).Nodup := by
  have hperm : db.sortedGroups.Perm db.groups := List.mergeSort_perm _ _
  rw [map_name_loadGroups hfiled h]
  exact (hperm.map GroupRow.key).nodup_iff.mpr hfiled.keys

theorem pairwise_sortedGroups (hkeys : (db.groups.map GroupRow.key).Nodup) :
    (db.sortedGroups.map GroupRow.key).Pairwise (· < ·) := by
  have hsorted : db.sortedGroups.Pairwise fun a b => decide (a.key ≤ b.key) = true := by
    apply List.pairwise_mergeSort
    case trans =>
      intro a b c hab hbc
      simp only [decide_eq_true_eq] at hab hbc ⊢
      exact String.le_trans hab hbc
    case total =>
      intro a b
      simp only [Bool.or_eq_true, decide_eq_true_eq]
      exact String.le_total a.key b.key
  have hnodup : (db.sortedGroups.map GroupRow.key).Nodup :=
    ((List.mergeSort_perm _ _).map GroupRow.key).nodup_iff.mpr hkeys
  rw [List.pairwise_map]
  refine hsorted.imp₂ ?_ (List.pairwise_map.mp hnodup)
  intro a b hle hne
  exact String.not_le.mp fun hge => hne (String.le_antisymm (of_decide_eq_true hle) hge)

theorem pairwise_names (hfiled : GroupRow.Filed db.groups) (h : db.loadGroups = .ok groups) :
    (groups.map Group.name).Pairwise (· < ·) := by
  rw [map_name_loadGroups hfiled h]
  exact pairwise_sortedGroups hfiled.keys

theorem name_of_findGroup (hfiled : GroupRow.Filed db.groups) (h : db.findGroup name = .ok (some g)) :
    g.name = name := by
  rw [findGroup] at h
  split at h
  next =>
    cases h
  next =>
    split at h
    next =>
      cases h
    next row hrow =>
      split at h
      next =>
        cases h
      next hdecoded =>
        cases h
        rw [hfiled.names row (List.mem_of_find?_eq_some hrow) g hdecoded]
        simpa using List.find?_some hrow

theorem findGroup_of_mem (hfiled : GroupRow.Filed db.groups) (h : db.loadGroups = .ok groups)
    (hg : g ∈ groups) : db.findGroup g.name = .ok (some g) := by
  have hload := loadGroups_eq h
  rcases mem_decodeBodies hload.right hg with ⟨body, hbody, hdecoded⟩
  rcases List.mem_map.mp hbody with ⟨row, hrow, rfl⟩
  have hmem : row ∈ db.groups := (List.mergeSort_perm _ _).mem_iff.mp hrow
  have hname := hfiled.names row hmem g hdecoded
  have hfind : db.groups.find? (fun r => r.key == g.name) = some row := by
    cases hfound : db.groups.find? fun r => r.key == g.name with
    | none =>
        have hother := List.find?_eq_none.mp hfound row hmem
        simp [hname] at hother
    | some other =>
        have hkey : other.key = row.key := by
          have hsame := List.find?_some hfound
          simp only [beq_iff_eq] at hsame
          exact hsame.trans hname
        rw [List.inj_on_of_nodup_map hfiled.keys (List.mem_of_find?_eq_some hfound) hmem hkey]
  rw [findGroup, hload.left, hfind]
  simp [hdecoded]

/-!
# Writing
-/

theorem mem_putGroup {row new : GroupRow} {rows : List GroupRow} :
    row ∈ putGroup new rows ↔ row = new ∨ row ∈ rows ∧ row.key ≠ new.key := by
  rw [putGroup]
  split
  next hany =>
    rcases List.any_eq_true.mp hany with ⟨old, hold, hsame⟩
    rw [List.mem_map]
    constructor
    · rintro ⟨r, hr, rfl⟩
      split
      next =>
        exact Or.inl rfl
      next hother =>
        exact Or.inr ⟨hr, fun hkey => hother (beq_iff_eq.mpr hkey)⟩
    · rintro (rfl | ⟨hrow, hother⟩)
      · exact ⟨old, hold, if_pos hsame⟩
      · exact ⟨row, hrow, if_neg fun hsame => hother (beq_iff_eq.mp hsame)⟩
  next hnew =>
    have hother : row ∈ rows → row.key ≠ new.key := fun hrow hkey =>
      hnew (List.any_eq_true.mpr ⟨row, hrow, beq_iff_eq.mpr hkey⟩)
    rw [List.mem_append, List.mem_singleton]
    grind

theorem nodup_keys_putGroup {rows : List GroupRow} (h : (rows.map GroupRow.key).Nodup)
    (new : GroupRow) : ((putGroup new rows).map GroupRow.key).Nodup := by
  rw [putGroup]
  split
  next =>
    have hkeys : (rows.map fun r => if r.key == new.key then new else r).map GroupRow.key =
        rows.map GroupRow.key := by
      rw [List.map_map]
      apply List.map_congr_left
      intro r _
      simp only [Function.comp_apply]
      split
      next hsame =>
        exact (beq_iff_eq.mp hsame).symm
      next =>
        rfl
    rw [hkeys]
    exact h
  next hnew =>
    rw [List.map_append, List.map_singleton, List.nodup_append]
    refine ⟨h, List.nodup_singleton _, ?_⟩
    intro key hkey other hother hsame
    rcases List.mem_map.mp hkey with ⟨r, hr, rfl⟩
    rw [List.mem_singleton.mp hother] at hsame
    exact hnew (List.any_eq_true.mpr ⟨r, hr, beq_iff_eq.mpr hsame⟩)

theorem filed_putGroup {rows : List GroupRow} (hfiled : GroupRow.Filed rows) (g : Group) :
    GroupRow.Filed (putGroup (GroupRow.ofGroup g) rows) where
  keys := nodup_keys_putGroup hfiled.keys (GroupRow.ofGroup g)
  names := by
    intro row hrow found hdecoded
    rcases mem_putGroup.mp hrow with rfl | ⟨hold, _⟩
    · have hstored : Json.decodeText Group.decode (GroupRow.ofGroup g).body = .ok g :=
        g.decodeText_toJson
      rw [hstored] at hdecoded
      cases hdecoded
      rfl
    · exact hfiled.names row hold found hdecoded

theorem filed_saveGroup (hfiled : GroupRow.Filed db.groups) (h : db.saveGroup g = .ok db') :
    GroupRow.Filed db'.groups := by
  rw [saveGroup] at h
  split at h
  next =>
    cases h
  next =>
    rw [permit] at h
    split at h
    next =>
      cases h
      exact filed_putGroup hfiled g
    next =>
      cases h

theorem filed_deleteGroup (hfiled : GroupRow.Filed db.groups) {deleted : Bool}
    (h : db.deleteGroup name = .ok (deleted, db')) : GroupRow.Filed db'.groups := by
  rw [deleteGroup] at h
  split at h
  next =>
    cases h
  next =>
    split at h
    next =>
      rw [permit] at h
      split at h
      next =>
        cases h
        constructor
        case keys =>
          exact hfiled.keys.sublist (List.filter_sublist.map GroupRow.key)
        case names =>
          intro row hrow
          exact hfiled.names row (List.mem_filter.mp hrow).left
      next =>
        cases h
    next =>
      cases h
      exact hfiled

end Database
end ServerFleet
