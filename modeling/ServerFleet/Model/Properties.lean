import ServerFleet.Json.Decode

/-!
# Properties

Free-form settings of groups and servers: texts under textual keys.  The entries
are kept in ascending order of their keys, and every key stands once.
-/

namespace ServerFleet

def insertEntry (key value : String) : List (String × String) → List (String × String)
  | [] => [(key, value)]
  | e :: rest =>
      if key < e.1 then (key, value) :: e :: rest
      else if key = e.1 then (key, value) :: rest
      else e :: insertEntry key value rest

def Ascending (entries : List (String × String)) : Prop :=
  entries.Pairwise fun a b => a.1 < b.1

theorem key_of_mem_insertEntry {key value : String} {entries : List (String × String)}
    {e : String × String} (h : e ∈ insertEntry key value entries) :
    e.1 = key ∨ e ∈ entries := by
  induction entries with
  | nil =>
      simp only [insertEntry, List.mem_singleton] at h
      exact Or.inl (by rw [h])
  | cons x rest ih =>
      simp only [insertEntry] at h
      split at h
      · rcases List.mem_cons.mp h with rfl | h
        · exact Or.inl rfl
        · exact Or.inr h
      · split at h
        · rcases List.mem_cons.mp h with rfl | h
          · exact Or.inl rfl
          · exact Or.inr (List.mem_cons_of_mem _ h)
        · rcases List.mem_cons.mp h with rfl | h
          · exact Or.inr List.mem_cons_self
          · rcases ih h with h | h
            · exact Or.inl h
            · exact Or.inr (List.mem_cons_of_mem _ h)

theorem ascending_insertEntry (key value : String) {entries : List (String × String)}
    (h : Ascending entries) : Ascending (insertEntry key value entries) := by
  induction entries with
  | nil =>
      simp [insertEntry, Ascending]
  | cons x rest ih =>
      have hx := List.pairwise_cons.mp h
      simp only [insertEntry]
      split
      · rename_i hlt
        refine List.pairwise_cons.mpr ⟨fun e he => ?_, h⟩
        rcases List.mem_cons.mp he with rfl | he
        · exact hlt
        · exact String.lt_trans hlt (hx.1 e he)
      · split
        · rename_i heq
          exact List.pairwise_cons.mpr ⟨fun e he => heq ▸ hx.1 e he, hx.2⟩
        · rename_i hlt hne
          refine List.pairwise_cons.mpr ⟨fun e he => ?_, ih hx.2⟩
          rcases key_of_mem_insertEntry he with he | he
          · rw [he]
            rcases String.le_total key x.1 with hle | hle
            · have : ¬ key < x.1 := hlt
              exact absurd (String.le_antisymm hle (String.not_lt.mp this)) hne
            · exact String.not_le.mp fun hle' => hne (String.le_antisymm hle' hle)
          · exact hx.1 e he

structure Properties where
  entries : List (String × String)
  ascending : Ascending entries
deriving DecidableEq

namespace Properties

def empty : Properties :=
  ⟨[], List.Pairwise.nil⟩

def insert (key value : String) (p : Properties) : Properties :=
  ⟨insertEntry key value p.entries, ascending_insertEntry key value p.ascending⟩

def get? (key : String) (p : Properties) : Option String :=
  (p.entries.find? fun e => e.1 == key).map Prod.snd

/-- Collects entries; of several under one key the last one counts. -/
def ofEntries (entries : List (String × String)) : Properties :=
  entries.foldl (fun p e => p.insert e.1 e.2) empty

def decode : Json.Decoder Properties := fun source r =>
  (Json.Decode.stringMap source r).map ofEntries

def toJson (p : Properties) : Json.Value :=
  .object (p.entries.map fun e => (e.1, .string e.2))

end Properties
end ServerFleet
