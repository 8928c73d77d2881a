import ServerFleet.Proofs.Store.Writes

/-!
# Runs of the store

A run is a sequence of calls, each under its own weather: which statements the
database refuses at that moment.  Whatever the run, the table reads back as the
sorted index, and what a call does can be told from what is found before and after.
-/

namespace ServerFleet

inductive StoreCall where
  | save (s : Server)
  | replace (s : Server)
  | remove (id : ServerId)
  | reopen

inductive StoreAnswer where
  | written
  | absent
  | removed (s : Server)
  | opened
  | failed (error : StoreError)

namespace StoreCall

def record? : StoreCall → Option Server
  | .save s => some s
  | .replace s => some s
  | .remove _ => none
  | .reopen => none

def wanted? : StoreCall → Option ServerId
  | .save _ => none
  | .replace s => some s.id
  | .remove id => some id
  | .reopen => none

def statement? : StoreCall → Option Statement
  | .save s => some (.saveServer s.id.text)
  | .replace s => some (.saveServer s.id.text)
  | .remove id => some (.deleteServer id.text)
  | .reopen => none

end StoreCall

namespace Store

def fresh : Store :=
  ⟨.empty, [], []⟩

def under (st : Store) (refusal : Statement → Option String) : Store :=
  { st with database := { st.database with refusal } }

def perform (st : Store) : StoreCall → Store × StoreAnswer
  | .save s =>
      match st.save s with
      | .error e => (st, .failed e)
      | .ok st' => (st', .written)
  | .replace s =>
      match st.replace s with
      | .error e => (st, .failed e)
      | .ok none => (st, .absent)
      | .ok (some st') => (st', .written)
  | .remove id =>
      match st.remove id with
      | .error e => (st, .failed e)
      | .ok none => (st, .absent)
      | .ok (some (s, st')) => (st', .removed s)
  | .reopen =>
      match load st.database with
      | .error e => (st, .failed e)
      | .ok st' => (st', .opened)

def run (steps : List ((Statement → Option String) × StoreCall)) : Store :=
  steps.foldl (fun st step => ((st.under step.1).perform step.2).1) fresh

/-- What a call does, told by what can be found before and after it. -/
structure Effect (st : Store) (call : StoreCall) (st' : Store) (answer : StoreAnswer) : Prop where
  failed : ∀ e, answer = .failed e → st' = st
  failed_iff : ∀ e, answer = .failed e ↔
    answer ≠ .absent ∧ ∃ statement, call.statement? = some statement ∧
      ((∃ reason, st.database.refusal statement = some reason ∧ e = .refused reason) ∨
        st.database.refusal statement = none ∧
          ∃ s, call.record? = some s ∧ st.Occupied s ∧ e = .numberTaken)
  absent : answer = .absent → st' = st
  absent_iff : answer = .absent ↔ ∃ id, call.wanted? = some id ∧ st.get? id = none
  written : answer = .written → ∃ s, call.record? = some s ∧
    ∀ id, st'.get? id = if id = s.id then some s else st.get? id
  removed : ∀ s, answer = .removed s → call = .remove s.id ∧ st.get? s.id = some s ∧
    ∀ id, st'.get? id = if id = s.id then none else st.get? id
  opened : call = .reopen → answer = .opened ∧ st'.all = st.all ∧ st'.database = st.database

variable {st : Store}

/-!
# One call
-/

theorem Consistent.under (h : Consistent st) (refusal : Statement → Option String) :
    Consistent (st.under refusal) where
  table := h.table
  rows := h.rows
  nodup := h.nodup
  places := h.places

theorem Consistent.perform (h : Consistent st) (call : StoreCall) :
    Consistent (st.perform call).1 := by
  cases call with
  | save s =>
      rw [Store.perform]
      cases hsave : st.save s with
      | error e =>
          exact h
      | ok st' =>
          rcases h.save_eq_ok_iff.mp hsave with ⟨_, hplace, rfl⟩
          exact h.stored hplace
  | replace s =>
      rw [Store.perform]
      cases hreplace : st.replace s with
      | error e =>
          exact h
      | ok found =>
          cases found with
          | none =>
              exact h
          | some st' =>
              have hsave := (replace_eq_some_iff.mp hreplace).right
              rcases h.save_eq_ok_iff.mp hsave with ⟨_, hplace, rfl⟩
              exact h.stored hplace
  | remove id =>
      rw [Store.perform]
      cases hremove : st.remove id with
      | error e =>
          exact h
      | ok found =>
          cases found with
          | none =>
              exact h
          | some found =>
              rcases h.remove_eq_some_iff.mp hremove with ⟨_, _, hst⟩
              show Consistent found.2
              rw [hst]
              exact h.without id
  | reopen =>
      rw [Store.perform, h.load_eq]
      exact h.loaded

/-- A write that fails does so for one of two reasons, and which it is shows in the error. -/
theorem Consistent.failed_save_iff (h : Consistent st) {s : Server} {e : StoreError}
    (hsave : st.save s = .error e) (e' : StoreError) :
    e = e' ↔
      (∃ reason, st.database.refusal (.saveServer s.id.text) = some reason ∧
        e' = .refused reason) ∨
      st.database.refusal (.saveServer s.id.text) = none ∧ st.Occupied s ∧
        e' = .numberTaken := by
  have herror := h.save_eq_error_iff (s := s) (e := e')
  rw [hsave, Except.error.injEq] at herror
  exact herror

theorem Consistent.effect_save (h : Consistent st) (s : Server) :
    Effect st (.save s) (st.perform (.save s)).1 (st.perform (.save s)).2 := by
  rw [Store.perform]
  cases hsave : st.save s with
  | error e =>
      constructor
      case failed_iff =>
        intro e'
        simp [StoreCall.statement?, StoreCall.record?, h.failed_save_iff hsave]
      all_goals simp [StoreCall.wanted?]
  | ok st' =>
      rcases h.save_eq_ok_iff.mp hsave with ⟨hpermitted, hplace, rfl⟩
      constructor
      case written =>
        intro _
        exact ⟨s, rfl, h.get?_stored hplace⟩
      all_goals simp [StoreCall.statement?, StoreCall.record?, StoreCall.wanted?, hpermitted, hplace]

theorem Consistent.effect_replace (h : Consistent st) (s : Server) :
    Effect st (.replace s) (st.perform (.replace s)).1 (st.perform (.replace s)).2 := by
  rw [Store.perform]
  cases hreplace : st.replace s with
  | error e =>
      rcases replace_eq_error_iff.mp hreplace with ⟨hmem, hsave⟩
      have hfound : st.get? s.id ≠ none := fun hnone => get?_eq_none_iff.mp hnone hmem
      constructor
      case failed_iff =>
        intro e'
        simp [StoreCall.statement?, StoreCall.record?, h.failed_save_iff hsave]
      all_goals simp [StoreCall.wanted?, hfound]
  | ok found =>
      cases found with
      | none =>
          have hnone := get?_eq_none_iff.mpr (replace_eq_none_iff.mp hreplace)
          constructor
          all_goals simp [StoreCall.wanted?, hnone]
      | some st' =>
          rcases replace_eq_some_iff.mp hreplace with ⟨hmem, hsave⟩
          rcases h.save_eq_ok_iff.mp hsave with ⟨hpermitted, hplace, rfl⟩
          have hfound : st.get? s.id ≠ none := fun hnone => get?_eq_none_iff.mp hnone hmem
          constructor
          case written =>
            intro _
            exact ⟨s, rfl, h.get?_stored hplace⟩
          all_goals simp [StoreCall.statement?, StoreCall.record?, StoreCall.wanted?, hpermitted,
            hplace, hfound]

theorem Consistent.effect_remove (h : Consistent st) (id : ServerId) :
    Effect st (.remove id) (st.perform (.remove id)).1 (st.perform (.remove id)).2 := by
  rw [Store.perform, h.remove_eq]
  cases hget : st.get? id with
  | none =>
      constructor
      all_goals simp [StoreCall.wanted?, hget]
  | some s =>
      have hid := (mem_of_get? hget).right
      subst hid
      cases hrefusal : st.database.refusal (.deleteServer s.id.text) with
      | some reason =>
          constructor
          case failed_iff =>
            intro e'
            simp [StoreCall.statement?, hrefusal, eq_comm]
          all_goals simp [StoreCall.wanted?, hget]
      | none =>
          constructor
          case removed =>
            intro r hr
            cases hr
            exact ⟨rfl, hget, h.get?_without s.id⟩
          all_goals simp [StoreCall.statement?, StoreCall.record?, StoreCall.wanted?, hrefusal, hget]

theorem Consistent.effect_reopen (h : Consistent st) :
    Effect st .reopen (st.perform .reopen).1 (st.perform .reopen).2 := by
  rw [Store.perform, h.load_eq]
  constructor
  case opened =>
    intro _
    exact ⟨rfl, st.all_loaded, rfl⟩
  all_goals simp [StoreCall.statement?, StoreCall.wanted?]

theorem Consistent.effect (h : Consistent st) (call : StoreCall) :
    Effect st call (st.perform call).1 (st.perform call).2 := by
  cases call with
  | save s =>
      exact h.effect_save s
  | replace s =>
      exact h.effect_replace s
  | remove id =>
      exact h.effect_remove id
  | reopen =>
      exact h.effect_reopen

/-!
# All runs
-/

theorem consistent_fresh : Consistent fresh :=
  consistent_empty rfl rfl

theorem consistent_run (steps : List ((Statement → Option String) × StoreCall)) :
    Consistent (run steps) := by
  have hfrom (st : Store) (h : Consistent st) :
      Consistent (steps.foldl (fun st step => ((st.under step.1).perform step.2).1) st) := by
    induction steps generalizing st with
    | nil =>
        exact h
    | cons step rest ih =>
        exact ih _ ((h.under step.1).perform step.2)
  exact hfrom fresh consistent_fresh

/-- After every run the table reads back as the index sorted by place, no place is held twice, and the
next call fails, finds nothing or takes effect in both. -/
theorem table_reads_back_as_index (steps : List ((Statement → Option String) × StoreCall)) :
    (run steps).database.loadServers = .ok (run steps).all ∧
      (run steps).all.Pairwise Server.Before ∧
      (∀ s, s ∈ (run steps).all ↔ (run steps).get? s.id = some s) ∧
      (∀ a ∈ (run steps).all, ∀ b ∈ (run steps).all, a.place = b.place → a = b) ∧
      (∀ group number s, (run steps).byNumber? group number = some s ↔
        s ∈ (run steps).byGroup group ∧ s.number.toNat = number) ∧
      ∀ refusal call, Effect ((run steps).under refusal) call
        (((run steps).under refusal).perform call).1
        (((run steps).under refusal).perform call).2 := by
  have h := consistent_run steps
  refine ⟨h.loadServers_eq, h.sorted_select _, ?_, ?_, ?_, ?_⟩
  · intro s
    rw [mem_all, h.get?_eq_some_iff]
    simp
  · intro a ha b hb
    exact h.eq_of_place (mem_all.mp ha) (mem_all.mp hb)
  · intro group number s
    exact h.byNumber?_eq_some_iff
  · intro refusal call
    exact (h.under refusal).effect call

end Store
end ServerFleet
