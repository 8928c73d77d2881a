import Mathlib.Data.List.Nodup
import Mathlib.Data.List.Perm.Subperm
import ServerFleet.Numbers

/-!
# Held numbers

What can be told of the numbers of a group from its entry, and how each operation changes
the entries.  A group has one entry at most, and no entry is empty: as long as this is so,
a group that holds nothing has no entry, and a number that is given back leaves the entries
as they were before it was taken.
-/

namespace ServerFleet
namespace Numbers

variable {n : Numbers} {group other : String} {number i : Nat} {numbers : List Nat}

/-!
# Ascending numbers
-/

theorem mem_insertNumber : i ∈ insertNumber number numbers ↔ i = number ∨ i ∈ numbers := by
  induction numbers with
  | nil =>
      exact List.mem_singleton.trans (or_iff_left List.not_mem_nil).symm
  | cons first rest ih =>
      rw [insertNumber]
      split
      next =>
        exact List.mem_cons
      next =>
        split
        next hsame =>
          rw [hsame, List.mem_cons, or_self_left]
        next =>
          rw [List.mem_cons, ih, List.mem_cons, or_left_comm]

theorem ascending_insertNumber (number : Nat) (h : numbers.Pairwise (· < ·)) :
    (insertNumber number numbers).Pairwise (· < ·) := by
  induction numbers with
  | nil =>
      exact List.pairwise_singleton _ _
  | cons first rest ih =>
      have hfirst := List.pairwise_cons.mp h
      rw [insertNumber]
      split
      next hless =>
        refine List.pairwise_cons.mpr ⟨?_, h⟩
        intro i hi
        rcases List.mem_cons.mp hi with rfl | hi
        · exact hless
        · exact Nat.lt_trans hless (hfirst.left i hi)
      next hnot =>
        split
        next =>
          exact h
        next hother =>
          refine List.pairwise_cons.mpr ⟨?_, ih hfirst.right⟩
          intro i hi
          rcases mem_insertNumber.mp hi with rfl | hi
          · exact Nat.lt_of_le_of_ne (Nat.le_of_not_lt hnot) (Ne.symm hother)
          · exact hfirst.left i hi

theorem filter_insertNumber (h : number ∉ numbers) :
    ((insertNumber number numbers).filter fun i => i != number) = numbers := by
  have hkept (l : List Nat) (hl : number ∉ l) : (l.filter fun i => i != number) = l := by
    rw [List.filter_eq_self]
    intro i hi
    exact bne_iff_ne.mpr fun hsame => hl (hsame ▸ hi)
  induction numbers with
  | nil =>
      simp [insertNumber]
  | cons first rest ih =>
      have hfirst : first ≠ number := fun hsame => h (hsame ▸ List.mem_cons_self)
      rw [insertNumber]
      split
      next =>
        rw [List.filter_cons_of_neg (by simp), hkept _ h]
      next =>
        rw [if_neg hfirst.symm, List.filter_cons_of_pos (by simpa using hfirst),
          ih fun hmem => h (List.mem_cons_of_mem first hmem)]

/-!
# Entries
-/

section

variable {entries : List (String × List Nat)} {e : String × List Nat}

theorem lookup_cons_of_ne (hne : e.1 ≠ group) : (e :: entries).lookup group = entries.lookup group := by
  have hother : (group == e.1) = false := beq_eq_false_iff_ne.mpr hne.symm
  rw [List.lookup_cons, hother]

theorem fst_ne_of_lookup (h : entries.lookup group = none) (he : e ∈ entries) : e.1 ≠ group := by
  have hother := List.lookup_eq_none_iff.mp h e he
  exact (bne_iff_ne.mp hother).symm

theorem mem_of_lookup (h : entries.lookup group = some numbers) : (group, numbers) ∈ entries := by
  rcases List.lookup_eq_some_iff.mp h with ⟨before, after, rfl, _⟩
  exact List.mem_append_right before List.mem_cons_self

theorem lookup_putEntry_self (group : String) (numbers : List Nat) (entries : List (String × List Nat)) :
    (putEntry group numbers entries).lookup group = some numbers := by
  induction entries with
  | nil =>
      exact List.lookup_cons_self
  | cons e rest ih =>
      rw [putEntry]
      split
      next =>
        exact List.lookup_cons_self
      next hne =>
        rw [lookup_cons_of_ne hne, ih]

theorem lookup_putEntry_of_ne (hne : other ≠ group) (numbers : List Nat)
    (entries : List (String × List Nat)) :
    (putEntry group numbers entries).lookup other = entries.lookup other := by
  induction entries with
  | nil =>
      exact lookup_cons_of_ne hne.symm
  | cons e rest ih =>
      rw [putEntry]
      split
      next hsame =>
        rw [lookup_cons_of_ne hne.symm, lookup_cons_of_ne (hsame.trans_ne hne.symm)]
      next =>
        rw [List.lookup_cons, List.lookup_cons, ih]

theorem putEntry_putEntry (group : String) (numbers old : List Nat) (entries : List (String × List Nat)) :
    putEntry group numbers (putEntry group old entries) = putEntry group numbers entries := by
  induction entries with
  | nil =>
      exact if_pos rfl
  | cons e rest ih =>
      rw [putEntry, putEntry]
      split
      next =>
        exact if_pos rfl
      next hne =>
        rw [putEntry, if_neg hne, ih]

theorem putEntry_of_lookup (h : entries.lookup group = some numbers) :
    putEntry group numbers entries = entries := by
  induction entries with
  | nil =>
      cases h
  | cons e rest ih =>
      rw [putEntry]
      split
      next hsame =>
        subst hsame
        rw [show (e :: rest).lookup e.1 = some e.2 from List.lookup_cons_self] at h
        cases h
        rfl
      next hne =>
        rw [lookup_cons_of_ne hne] at h
        rw [ih h]

theorem mem_putEntry (h : e ∈ putEntry group numbers entries) :
    e = (group, numbers) ∨ e ∈ entries := by
  induction entries with
  | nil =>
      exact Or.inl (List.mem_singleton.mp h)
  | cons first rest ih =>
      rw [putEntry] at h
      split at h
      next =>
        exact (List.mem_cons.mp h).imp_right (List.mem_cons_of_mem first)
      next =>
        rcases List.mem_cons.mp h with rfl | h
        · exact Or.inr List.mem_cons_self
        · exact (ih h).imp_right (List.mem_cons_of_mem first)

theorem nodup_putEntry (group : String) (numbers : List Nat) (h : (entries.map Prod.fst).Nodup) :
    ((putEntry group numbers entries).map Prod.fst).Nodup := by
  induction entries with
  | nil =>
      exact List.nodup_singleton group
  | cons e rest ih =>
      have hkeys := List.nodup_cons.mp h
      rw [putEntry]
      split
      next hsame =>
        exact hsame ▸ h
      next hne =>
        refine List.nodup_cons.mpr ⟨?_, ih hkeys.right⟩
        intro hmem
        rcases List.mem_map.mp hmem with ⟨x, hx, hkey⟩
        rcases mem_putEntry hx with rfl | hx
        · exact hne hkey.symm
        · exact hkeys.left (List.mem_map.mpr ⟨x, hx, hkey⟩)

theorem filter_putEntry (group : String) (numbers : List Nat) (entries : List (String × List Nat)) :
    ((putEntry group numbers entries).filter fun e => e.1 != group) =
      entries.filter fun e => e.1 != group := by
  induction entries with
  | nil =>
      simp [putEntry]
  | cons e rest ih =>
      rw [putEntry]
      split
      next hsame =>
        rw [List.filter_cons_of_neg (by simp), List.filter_cons_of_neg (by simpa using hsame)]
      next hne =>
        rw [List.filter_cons_of_pos (by simpa using hne), List.filter_cons_of_pos (by simpa using hne), ih]

theorem filter_putEntry_of_ne (hne : other ≠ group) (numbers : List Nat)
    (entries : List (String × List Nat)) :
    ((putEntry other numbers entries).filter fun e => e.1 != group) =
      putEntry other numbers (entries.filter fun e => e.1 != group) := by
  induction entries with
  | nil =>
      simp [putEntry, hne]
  | cons e rest ih =>
      rw [putEntry]
      split
      next hsame =>
        rw [List.filter_cons_of_pos (by simpa using hne),
          List.filter_cons_of_pos (by simpa [hsame] using hne), putEntry, if_pos hsame]
      next hother =>
        by_cases hgroup : e.1 = group
        · rw [List.filter_cons_of_neg (by simpa using hgroup),
            List.filter_cons_of_neg (by simpa using hgroup), ih]
        · rw [List.filter_cons_of_pos (by simpa using hgroup),
            List.filter_cons_of_pos (by simpa using hgroup), ih, putEntry, if_neg hother]

end

/-!
# The entry of a group
-/

theorem numbers?_put_self (n : Numbers) (group : String) (numbers : List Nat) :
    (n.put group numbers).numbers? group = some numbers :=
  lookup_putEntry_self group numbers n.entries

theorem numbers?_put_of_ne (hne : other ≠ group) (n : Numbers) (numbers : List Nat) :
    (n.put group numbers).numbers? other = n.numbers? other :=
  lookup_putEntry_of_ne hne numbers n.entries

theorem numbers?_drop_self (n : Numbers) (group : String) : (n.drop group).numbers? group = none := by
  rw [numbers?, List.lookup_eq_none_iff]
  intro e he
  have hne := (List.mem_filter.mp he).right
  rw [bne_iff_ne] at hne ⊢
  exact hne.symm

theorem numbers?_drop_of_ne (hne : other ≠ group) (n : Numbers) :
    (n.drop group).numbers? other = n.numbers? other := by
  rw [drop, numbers?, numbers?]
  induction n.entries with
  | nil =>
      rfl
  | cons e rest ih =>
      by_cases hgroup : e.1 = group
      · rw [List.filter_cons_of_neg (by simpa using hgroup), ih,
          lookup_cons_of_ne (hgroup.trans_ne hne.symm)]
      · rw [List.filter_cons_of_pos (by simpa using hgroup), List.lookup_cons, List.lookup_cons, ih]

theorem drop_of_numbers? (h : n.numbers? group = none) : n.drop group = n := by
  rw [drop, List.filter_eq_self.mpr]
  intro e he
  exact bne_iff_ne.mpr (fst_ne_of_lookup h he)

theorem drop_put (n : Numbers) (group : String) (numbers : List Nat) :
    (n.put group numbers).drop group = n.drop group :=
  congrArg Numbers.mk (filter_putEntry group numbers n.entries)

theorem held_take_self (n : Numbers) (group : String) (number : Nat) :
    (n.take group number).held group = insertNumber number (n.held group) := by
  rw [held, take, numbers?_put_self, Option.getD_some]

theorem held_take_of_ne (hne : other ≠ group) (n : Numbers) (number : Nat) :
    (n.take group number).held other = n.held other := by
  rw [held, take, numbers?_put_of_ne hne, ← held]

/-- A release drops the entry of its group if nothing else is held there, be it that there is no entry. -/
theorem release_snd (n : Numbers) (group : String) (number : Nat) :
    (n.release group number).2 =
      if ((n.held group).filter fun i => i != number).isEmpty then n.drop group
      else n.put group ((n.held group).filter fun i => i != number) := by
  rw [release, held]
  cases hentry : n.numbers? group with
  | none =>
      exact (drop_of_numbers? hentry).symm
  | some numbers =>
      rfl

theorem held_release_self (n : Numbers) (group : String) (number : Nat) :
    (n.release group number).2.held group = (n.held group).filter fun i => i != number := by
  rw [release_snd, held]
  split
  next hempty =>
    rw [numbers?_drop_self, Option.getD_none, List.isEmpty_iff.mp hempty]
  next =>
    rw [numbers?_put_self, Option.getD_some]

theorem held_release_of_ne (hne : other ≠ group) (n : Numbers) (number : Nat) :
    (n.release group number).2.held other = n.held other := by
  rw [release_snd]
  split
  next =>
    rw [held, numbers?_drop_of_ne hne, ← held]
  next =>
    rw [held, numbers?_put_of_ne hne, ← held]

theorem drop_release (n : Numbers) (group : String) (number : Nat) :
    (n.release group number).2.drop group = n.drop group := by
  rw [release_snd]
  split
  next =>
    exact drop_of_numbers? (numbers?_drop_self n group)
  next =>
    exact drop_put n group _

theorem release_fst (n : Numbers) (group : String) (number : Nat) :
    (n.release group number).1 = n.isHeld group number := by
  rw [release, isHeld, held]
  cases n.numbers? group with
  | none =>
      rfl
  | some numbers =>
      rfl

/-!
# Slots
-/

instance : Membership (String × Nat) Numbers where
  mem n p := p.2 ∈ n.held p.1

theorem mem_iff : (group, number) ∈ n ↔ number ∈ n.held group :=
  Iff.rfl

theorem isHeld_iff : n.isHeld group number = true ↔ (group, number) ∈ n :=
  List.contains_iff_mem

theorem not_mem_empty (p : String × Nat) : p ∉ Numbers.empty :=
  List.not_mem_nil

theorem mem_take {p : String × Nat} : p ∈ n.take group number ↔ p = (group, number) ∨ p ∈ n := by
  rcases p with ⟨other, i⟩
  rw [mem_iff, mem_iff]
  by_cases hgroup : other = group
  · subst hgroup
    rw [held_take_self, mem_insertNumber]
    simp
  · rw [held_take_of_ne hgroup]
    simp [hgroup]

theorem mem_release {p : String × Nat} :
    p ∈ (n.release group number).2 ↔ p ∈ n ∧ p ≠ (group, number) := by
  rcases p with ⟨other, i⟩
  rw [mem_iff, mem_iff]
  by_cases hgroup : other = group
  · subst hgroup
    rw [held_release_self, List.mem_filter]
    simp
  · rw [held_release_of_ne hgroup]
    simp [hgroup]

/-!
# Tidy entries
-/

/-- A group has one entry at most, and an entry holds some numbers, in ascending order. -/
structure Tidy (n : Numbers) : Prop where
  groups : (n.entries.map Prod.fst).Nodup
  filled : ∀ e ∈ n.entries, e.2 ≠ []
  ascending : ∀ e ∈ n.entries, e.2.Pairwise (· < ·)

namespace Tidy

theorem empty : Numbers.empty.Tidy :=
  ⟨List.nodup_nil, fun _ he => (List.not_mem_nil he).elim, fun _ he => (List.not_mem_nil he).elim⟩

theorem put (h : n.Tidy) (group : String) (hfilled : numbers ≠ [])
    (hascending : numbers.Pairwise (· < ·)) : (n.put group numbers).Tidy where
  groups := nodup_putEntry group numbers h.groups
  filled := by
    intro e he
    rcases mem_putEntry he with rfl | he
    · exact hfilled
    · exact h.filled e he
  ascending := by
    intro e he
    rcases mem_putEntry he with rfl | he
    · exact hascending
    · exact h.ascending e he

theorem drop (h : n.Tidy) (group : String) : (n.drop group).Tidy where
  groups := h.groups.sublist (List.filter_sublist.map Prod.fst)
  filled := fun e he => h.filled e (List.mem_filter.mp he).left
  ascending := fun e he => h.ascending e (List.mem_filter.mp he).left

theorem ascending_held (h : n.Tidy) (group : String) : (n.held group).Pairwise (· < ·) := by
  rw [held]
  cases hentry : n.numbers? group with
  | none =>
      exact .nil
  | some numbers =>
      exact h.ascending _ (mem_of_lookup hentry)

theorem numbers?_eq_none_iff (h : n.Tidy) : n.numbers? group = none ↔ n.held group = [] := by
  rw [held]
  cases hentry : n.numbers? group with
  | none =>
      exact iff_of_true rfl rfl
  | some numbers =>
      exact iff_of_false (Option.some_ne_none numbers) (h.filled _ (mem_of_lookup hentry))

theorem take (h : n.Tidy) (group : String) (number : Nat) : (n.take group number).Tidy := by
  refine h.put group ?_ (ascending_insertNumber number (h.ascending_held group))
  exact List.ne_nil_of_mem (mem_insertNumber.mpr (Or.inl rfl))

theorem release (h : n.Tidy) (group : String) (number : Nat) : (n.release group number).2.Tidy := by
  rw [release_snd]
  split
  next =>
    exact h.drop group
  next hrest =>
    rw [List.isEmpty_iff] at hrest
    exact h.put group hrest ((h.ascending_held group).filter _)

end Tidy

/-- Giving back a number that was just taken leaves no trace: the entry is as before, and it is gone if it was
put there for this number. -/
theorem release_take (h : n.Tidy) (hfree : (group, number) ∉ n) :
    ((n.take group number).release group number).2 = n := by
  rw [release_snd, held_take_self, filter_insertNumber (mt mem_iff.mpr hfree), take]
  split
  next hempty =>
    rw [drop_put, drop_of_numbers? (h.numbers?_eq_none_iff.mpr (List.isEmpty_iff.mp hempty))]
  next hfilled =>
    cases hentry : n.numbers? group with
    | none =>
        rw [List.isEmpty_iff] at hfilled
        exact absurd (h.numbers?_eq_none_iff.mp hentry) hfilled
    | some numbers =>
        rw [held, hentry, Option.getD_some, put, put, putEntry_putEntry, putEntry_of_lookup hentry]

/-!
# Free numbers
-/

theorem lt_of_mem_candidates {count : Nat} (h : i ∈ candidates count) : i < UInt32.size := by
  rcases List.mem_map.mp h with ⟨j, _, rfl⟩
  exact Nat.mod_lt _ (by decide)

theorem free_of_firstFree? (h : n.firstFree? group = some number) :
    (group, number) ∉ n ∧ number < UInt32.size := by
  constructor
  · have hfree := List.find?_some h
    rw [Bool.not_eq_true', ← Bool.not_eq_true, isHeld_iff] at hfree
    exact hfree
  · exact lt_of_mem_candidates (List.mem_of_find?_eq_some h)

theorem nodup_candidates (count : Nat) : (candidates count).Nodup := by
  apply List.Nodup.map_on
  · intro i hi j hj hsame
    rw [List.mem_range] at hi hj
    simp only [UInt32.size] at hi hj hsame
    omega
  · exact List.nodup_range

/-- Unless all words are held in a group there is a free number: more are tried than are held. -/
theorem exists_firstFree? (h : (n.held group).length < UInt32.size) :
    ∃ number, n.firstFree? group = some number := by
  cases hfree : n.firstFree? group with
  | some number =>
      exact ⟨number, rfl⟩
  | none =>
      have hall := List.find?_eq_none.mp hfree
      have hsubset : candidates ((n.held group).length + 1) ⊆ n.held group := by
        intro i hi
        have hheld := hall i hi
        rw [Bool.not_eq_true, Bool.not_eq_false', isHeld_iff] at hheld
        exact hheld
      have hle := (List.subperm_of_subset (nodup_candidates _) hsubset).length_le
      rw [candidates, List.length_map, List.length_range] at hle
      omega

theorem allocate_of_firstFree? (h : n.firstFree? group = some number) :
    n.allocate group = (number, n.take group number) := by
  rw [allocate, h]
  rfl

/-!
# The numbers of a group
-/

theorem held_eq_of_mem_iff (h : n.Tidy) (hsorted : numbers.Pairwise (· < ·))
    (hmem : ∀ i, (group, i) ∈ n ↔ i ∈ numbers) : n.held group = numbers := by
  have hheld := h.ascending_held group
  have hperm : (n.held group).Perm numbers := by
    rw [List.perm_ext_iff_of_nodup (hheld.imp Nat.ne_of_lt) (hsorted.imp Nat.ne_of_lt)]
    exact hmem
  exact List.Perm.eq_of_pairwise (fun a b _ _ hab hba => (Nat.lt_asymm hab hba).elim) hheld hsorted hperm

theorem held_congr {n' : Numbers} (h : n.Tidy) (h' : n'.Tidy) (hmem : ∀ p, p ∈ n ↔ p ∈ n')
    (group : String) : n.held group = n'.held group :=
  held_eq_of_mem_iff h (h'.ascending_held group) fun i => hmem (group, i)

end Numbers
end ServerFleet
