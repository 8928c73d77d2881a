import Mathlib.Data.List.Induction
import Mathlib.Logic.Function.Basic
import Mathlib.Order.Interval.Finset.Nat
import ServerFleet.Proofs.Store.Numbers

/-!
# Numbers as sets

What is held is a set of numbers for each group.  A group takes the least positive number
that is not in its set, and other groups do not notice.  A group that has given back all
its numbers leaves nothing behind: the numbers are as if it had never asked.
-/

namespace ServerFleet

/-!
# Least free numbers
-/

theorem exists_free (s : Finset Nat) : ∃ i, 0 < i ∧ i ∉ s := by
  rcases s.exists_nat_subset_range with ⟨n, hn⟩
  refine ⟨n + 1, Nat.succ_pos n, ?_⟩
  intro hmem
  exact absurd (Finset.mem_range.mp (hn hmem)) (by omega)

def leastFree (s : Finset Nat) : Nat :=
  Nat.find (exists_free s)

theorem leastFree_pos (s : Finset Nat) : 0 < leastFree s :=
  (Nat.find_spec (exists_free s)).left

theorem leastFree_not_mem (s : Finset Nat) : leastFree s ∉ s :=
  (Nat.find_spec (exists_free s)).right

theorem mem_of_lt_leastFree {s : Finset Nat} {i : Nat} (hpositive : 0 < i) (hless : i < leastFree s) :
    i ∈ s := by
  by_contra hfree
  exact Nat.find_min (exists_free s) hless ⟨hpositive, hfree⟩

theorem leastFree_le (s : Finset Nat) : leastFree s ≤ s.card + 1 := by
  have hsubset : Finset.Ico 1 (leastFree s) ⊆ s := by
    intro i hi
    rcases Finset.mem_Ico.mp hi with ⟨hpositive, hless⟩
    exact mem_of_lt_leastFree hpositive hless
  have hcard := Finset.card_le_card hsubset
  rw [Nat.card_Ico] at hcard
  omega

/-!
# Calls
-/

inductive NumberCall where
  | allocate (group : String)
  | release (group : String) (number : Nat)
  | reserve (group : String) (number : Nat)

def NumberCall.group : NumberCall → String
  | .allocate group => group
  | .release group _ => group
  | .reserve group _ => group

inductive NumberReply where
  | number (number : Nat)
  | flag (success : Bool)
deriving DecidableEq

namespace Numbers

def perform (n : Numbers) : NumberCall → NumberReply × Numbers
  | .allocate group =>
      let (number, n) := n.allocate group
      (.number number, n)
  | .release group number =>
      let (success, n) := n.release group number
      (.flag success, n)
  | .reserve group number =>
      let (success, n) := n.reserve group number
      (.flag success, n)

def after (calls : List NumberCall) : Numbers :=
  calls.foldl (fun n call => (n.perform call).2) .empty

theorem after_snoc (calls : List NumberCall) (call : NumberCall) :
    after (calls ++ [call]) = ((after calls).perform call).2 := by
  rw [after, List.foldl_append, ← after]
  rfl

end Numbers

abbrev Holdings := String → Finset Nat

namespace Holdings

def perform (h : Holdings) : NumberCall → NumberReply × Holdings
  | .allocate group =>
      (.number (leastFree (h group)), Function.update h group (insert (leastFree (h group)) (h group)))
  | .release group number =>
      (.flag (number ∈ h group), Function.update h group ((h group).erase number))
  | .reserve group number =>
      (.flag (number ∉ h group), Function.update h group (insert number (h group)))

def after (calls : List NumberCall) : Holdings :=
  calls.foldl (fun h call => (h.perform call).2) fun _ => ∅

theorem after_snoc (calls : List NumberCall) (call : NumberCall) :
    after (calls ++ [call]) = ((after calls).perform call).2 := by
  rw [after, List.foldl_append, ← after]
  rfl

/-- Fewer numbers are held in each group than there are positive words. -/
def Roomy (h : Holdings) : Prop :=
  ∀ group, (h group).card < UInt32.size - 1

end Holdings

namespace Numbers

variable {n : Numbers} {h : Holdings} {group other : String}

/-!
# One call
-/

structure Represents (n : Numbers) (h : Holdings) : Prop where
  tidy : n.Tidy
  mem : ∀ group number, number ∈ n.held group ↔ number ∈ h group

namespace Represents

theorem length_held (hn : n.Represents h) (group : String) : (n.held group).length = (h group).card := by
  rw [← List.toFinset_card_of_nodup ((hn.tidy.ascending_held group).imp Nat.ne_of_lt)]
  congr 1
  ext number
  rw [List.mem_toFinset, hn.mem]

theorem isHeld_eq (hn : n.Represents h) (group : String) (number : Nat) :
    n.isHeld group number = decide (number ∈ h group) := by
  rw [Bool.eq_iff_iff, isHeld_iff, mem_iff, hn.mem, decide_eq_true_iff]

/-- The search comes to the least free number before the candidates begin again with zero. -/
theorem firstFree?_eq (hn : n.Represents h) (hroom : (h group).card < UInt32.size - 1) :
    n.firstFree? group = some (leastFree (h group)) := by
  have hpositive := leastFree_pos (h group)
  have hle := leastFree_le (h group)
  have hword (i : Nat) (hi : i < leastFree (h group)) : (i + 1) % UInt32.size = i + 1 := by
    apply Nat.mod_eq_of_lt
    omega
  have hlast : leastFree (h group) - 1 + 1 = leastFree (h group) := by
    omega
  rw [firstFree?, candidates, List.find?_map, Option.map_eq_some_iff]
  refine ⟨leastFree (h group) - 1, List.find?_range_eq_some.mpr ⟨?_, ?_, ?_⟩, ?_⟩
  · rw [Function.comp_apply, hword _ (by omega), hlast, hn.isHeld_eq]
    simp [leastFree_not_mem]
  · rw [List.mem_range, hn.length_held]
    omega
  · intro i hi
    have hmem : i + 1 ∈ h group := mem_of_lt_leastFree (Nat.succ_pos i) (by omega)
    rw [Function.comp_apply, hword _ (by omega), hn.isHeld_eq]
    simp [hmem]
  · rw [hword _ (by omega), hlast]

theorem empty : Numbers.empty.Represents fun _ => ∅ where
  tidy := .empty
  mem := fun _ _ => iff_of_false List.not_mem_nil (Finset.notMem_empty _)

theorem taken (hn : n.Represents h) (group : String) (number : Nat) :
    (n.take group number).Represents (Function.update h group (insert number (h group))) where
  tidy := hn.tidy.take group number
  mem := by
    intro other i
    rw [← mem_iff, mem_take, mem_iff, hn.mem]
    by_cases hother : other = group
    · subst hother
      simp
    · simp [hother]

theorem released (hn : n.Represents h) (group : String) (number : Nat) :
    (n.release group number).2.Represents (Function.update h group ((h group).erase number)) where
  tidy := hn.tidy.release group number
  mem := by
    intro other i
    rw [← mem_iff, mem_release, mem_iff, hn.mem]
    by_cases hother : other = group
    · subst hother
      simp [and_comm]
    · simp [hother]

theorem perform (hn : n.Represents h) (hroom : h.Roomy) (call : NumberCall) :
    (n.perform call).1 = (h.perform call).1 ∧ (n.perform call).2.Represents (h.perform call).2 := by
  cases call with
  | allocate group =>
      have hfree := hn.firstFree?_eq (hroom group)
      rw [Numbers.perform, allocate_of_firstFree? hfree]
      exact ⟨rfl, hn.taken group _⟩
  | release group number =>
      refine ⟨?_, hn.released group number⟩
      show NumberReply.flag (n.release group number).1 = _
      rw [release_fst, hn.isHeld_eq]
      rfl
  | reserve group number =>
      refine ⟨?_, hn.taken group number⟩
      show NumberReply.flag (!n.isHeld group number) = .flag (number ∉ h group)
      rw [hn.isHeld_eq]
      simp

end Represents

/-!
# Without a group
-/

theorem drop_put_of_ne (hne : other ≠ group) (n : Numbers) (numbers : List Nat) :
    (n.put other numbers).drop group = (n.drop group).put other numbers :=
  congrArg Numbers.mk (filter_putEntry_of_ne hne numbers n.entries)

theorem drop_drop (n : Numbers) (group other : String) :
    (n.drop other).drop group = (n.drop group).drop other := by
  rw [drop, drop, drop, drop, List.filter_filter, List.filter_filter]
  simp only [Bool.and_comm]

theorem drop_take_of_ne (hne : other ≠ group) (n : Numbers) (number : Nat) :
    (n.take other number).drop group = (n.drop group).take other number := by
  rw [take, take, held, held, numbers?_drop_of_ne hne]
  exact drop_put_of_ne hne n _

theorem drop_release_of_ne (hne : other ≠ group) (n : Numbers) (number : Nat) :
    (n.release other number).2.drop group = ((n.drop group).release other number).2 := by
  rw [release_snd, release_snd, held, held, numbers?_drop_of_ne hne]
  split
  next =>
    exact drop_drop n group other
  next =>
    exact drop_put_of_ne hne n _

theorem drop_perform_self (n : Numbers) (call : NumberCall) :
    (n.perform call).2.drop call.group = n.drop call.group := by
  cases call with
  | allocate group | reserve group number =>
      exact drop_put n group _
  | release group number =>
      exact drop_release n group number

theorem drop_perform_of_ne {call : NumberCall} (hne : call.group ≠ group) (n : Numbers) :
    (n.perform call).2.drop group = ((n.drop group).perform call).2 := by
  cases call with
  | allocate other =>
      have hentry : (n.drop group).numbers? other = n.numbers? other := numbers?_drop_of_ne hne n
      have hfree : (n.drop group).firstFree? other = n.firstFree? other := by
        simp only [firstFree?, isHeld, held, hentry]
      show (n.take other _).drop group = (n.drop group).take other _
      rw [hfree]
      exact drop_take_of_ne hne n _
  | release other number =>
      exact drop_release_of_ne hne n number
  | reserve other number =>
      exact drop_take_of_ne hne n number

/-!
# All calls
-/

def Roomy (calls : List NumberCall) : Prop :=
  ∀ earlier, earlier <+: calls → ∀ group, ((after earlier).held group).length < UInt32.size - 1

theorem Roomy.of_snoc {calls : List NumberCall} {call : NumberCall} (hroom : Roomy (calls ++ [call])) :
    Roomy calls := by
  intro earlier hearlier
  exact hroom earlier (hearlier.trans (List.prefix_append calls [call]))

theorem Roomy.holdings {calls : List NumberCall} (hroom : Roomy calls)
    (hn : (after calls).Represents h) : h.Roomy := by
  intro group
  rw [← hn.length_held]
  exact hroom calls List.prefix_rfl group

theorem represents_after {calls : List NumberCall} (hroom : Roomy calls) :
    (after calls).Represents (Holdings.after calls) := by
  induction calls using List.reverseRecOn with
  | nil =>
      exact .empty
  | append_singleton calls call ih =>
      have hn := ih hroom.of_snoc
      rw [after_snoc, Holdings.after_snoc]
      exact (hn.perform (hroom.of_snoc.holdings hn) call).right

/-- The entries of all groups but one are as if nothing had been asked for that one. -/
theorem drop_after (calls : List NumberCall) (group : String) :
    (after calls).drop group = after (calls.filter fun call => call.group != group) := by
  induction calls using List.reverseRecOn with
  | nil =>
      rfl
  | append_singleton calls call ih =>
      rw [after_snoc, List.filter_append]
      by_cases hgroup : call.group = group
      · subst hgroup
        rw [drop_perform_self, ih, List.filter_cons_of_neg (by simp), List.filter_nil, List.append_nil]
      · rw [drop_perform_of_ne hgroup, ih, List.filter_cons_of_pos (by simpa using hgroup),
          List.filter_nil, after_snoc]

theorem release_last {number : Nat} (hlast : n.held group = [number]) :
    (n.release group number).2 = n.drop group := by
  rw [release_snd, hlast, List.filter_cons_of_neg (by simp), List.filter_nil, if_pos List.isEmpty_nil]

/-- After any calls that leave room in every group the numbers hold a set for each group, in ascending
order, and the next call is answered as on sets and leaves what it leaves of sets: a group takes its least
free number, and the other groups stay as they are.  The number taken is at most one more than there
are held, a positive word.  A group has one entry at most, and none unless it holds a number.  When it has
given back its last one nothing is left of it: the entries are as if nothing had been asked for it. -/
theorem numbers_refine_sets {calls : List NumberCall} (hroom : Roomy calls) :
    let n := after calls
    let h := Holdings.after calls
    (∀ group, (n.held group).Pairwise (· < ·) ∧ ∀ number, number ∈ n.held group ↔ number ∈ h group) ∧
    (∀ call, (n.perform call).1 = (h.perform call).1 ∧
      ∀ group, ((n.perform call).2.held group).Pairwise (· < ·) ∧
        ∀ number, number ∈ (n.perform call).2.held group ↔ number ∈ (h.perform call).2 group) ∧
    (∀ group, n.firstFree? group = some (n.allocate group).1 ∧ 0 < (n.allocate group).1 ∧
      (n.allocate group).1 ≤ (n.held group).length + 1 ∧ (n.held group).length + 1 < UInt32.size) ∧
    (n.entries.map Prod.fst).Nodup ∧
    (∀ group, (n.numbers? group = none ↔ n.held group = []) ∧
      (n.held group = [] → n = after (calls.filter fun call => call.group != group))) ∧
    ∀ group number, n.held group = [number] →
      (n.release group number).2.numbers? group = none ∧
      (n.release group number).2 = after (calls.filter fun call => call.group != group) := by
  intro n h
  have hn : n.Represents h := represents_after hroom
  have hroomy := hroom.holdings hn
  refine ⟨?_, ?_, ?_, hn.tidy.groups, ?_, ?_⟩
  · intro group
    exact ⟨hn.tidy.ascending_held group, hn.mem group⟩
  · intro call
    rcases hn.perform hroomy call with ⟨hreply, hnext⟩
    exact ⟨hreply, fun group => ⟨hnext.tidy.ascending_held group, hnext.mem group⟩⟩
  · intro group
    have hfree := hn.firstFree?_eq (hroomy group)
    have hcard := hroomy group
    rw [allocate_of_firstFree? hfree, hn.length_held]
    exact ⟨hfree, leastFree_pos _, leastFree_le _, by omega⟩
  · intro group
    refine ⟨hn.tidy.numbers?_eq_none_iff, ?_⟩
    intro hempty
    rw [← drop_after, drop_of_numbers? (hn.tidy.numbers?_eq_none_iff.mpr hempty)]
  · intro group number hlast
    rw [release_last hlast, ← drop_after]
    exact ⟨numbers?_drop_self n group, rfl⟩

def visits : List NumberCall := [
  .reserve "lobby" 4294967295,
  .reserve "lobby" 0,
  .allocate "arena",
  .allocate "lobby",
  .allocate "lobby",
  .release "lobby" 1,
  .release "arena" 1,
  .allocate "arena"]

theorem roomy_visits : Roomy visits := by
  have hall : ∀ calls ∈ visits.inits, ∀ e ∈ (after calls).entries, e.2.length ≤ 4 := by
    decide +kernel
  intro earlier hearlier group
  have hentries := hall earlier ((List.mem_inits earlier visits).mpr hearlier)
  rw [held]
  cases hentry : (after earlier).numbers? group with
  | none =>
      decide
  | some numbers =>
      exact Nat.lt_of_le_of_lt (hentries _ (mem_of_lookup hentry)) (by decide)

theorem numbers_refine_sets_visits :
    Roomy visits ∧ leastFree (Holdings.after visits "lobby") = 1 ∧
      (after visits).held "arena" = [1] ∧
      ((after visits).release "arena" 1).2.numbers? "arena" = none ∧
      ((after visits).release "arena" 1).2 =
        after (visits.filter fun call => call.group != "arena") := by
  rcases numbers_refine_sets roomy_visits with ⟨_, hcalls, _, _, _, hlast⟩
  have htaken : ((after visits).perform (.allocate "lobby")).1 = .number 1 := by
    decide +kernel
  have harena : (after visits).held "arena" = [1] := by
    decide +kernel
  rw [(hcalls (.allocate "lobby")).left] at htaken
  exact ⟨roomy_visits, NumberReply.number.inj htaken, harena, hlast "arena" 1 harena⟩

end Numbers
end ServerFleet
