import Mathlib.Data.List.Forall2
import ServerFleet.Proofs.Scaling.Search

/-!
# How the demand moves

More players never lower the demand of a group, and every new server takes one off it.
So a group that gets its servers one after the other never swings back.
-/

namespace ServerFleet

/-!
# Fuller servers
-/

namespace Load

/-- A load with as many slots and at least as many players. -/
def Fuller (l l' : Load) : Prop :=
  l'.slots = l.slots ∧ l.players ≤ l'.players

variable {l l' : Load} {loads loads' : List Load}

theorem Fuller.percent_le (h : l.Fuller l') : l.percent ≤ l'.percent := by
  rw [percent, percent, h.left]
  split
  next =>
    exact Nat.le_refl 100
  next =>
    exact min_le_min_left _ (Nat.div_le_div_right (Nat.mul_le_mul_right _ h.right))

theorem Fuller.free_le (h : l.Fuller l') : l'.free ≤ l.free := by
  rw [free, free, h.left]
  exact Nat.sub_le_sub_left h.right _

theorem total_slots_of_fuller (h : List.Forall₂ Fuller loads loads') :
    total slots loads' = total slots loads := by
  induction h with
  | nil =>
      rfl
  | cons hfirst _ ih =>
      rw [total, total, hfirst.left, ih]

theorem total_free_le_of_fuller (h : List.Forall₂ Fuller loads loads') :
    total free loads' ≤ total free loads := by
  induction h with
  | nil =>
      exact Nat.le_refl 0
  | cons hfirst _ ih =>
      exact Nat.add_le_add hfirst.free_le ih

end Load

theorem length_highLoads_le_of_fuller (ratio : Nat) {loads loads' : List Load}
    (h : List.Forall₂ Load.Fuller loads loads') :
    (highLoads ratio loads).length ≤ (highLoads ratio loads').length := by
  rw [highLoads, highLoads, ← List.countP_eq_length_filter, ← List.countP_eq_length_filter]
  induction h with
  | nil =>
      exact Nat.le_refl 0
  | @cons l l' rest rest' hfirst _ ih =>
      rw [List.countP_cons, List.countP_cons]
      apply Nat.add_le_add ih
      have hpercent := hfirst.percent_le
      simp only [decide_eq_true_eq]
      split_ifs with hhigh hhigh'
      · exact Nat.le_refl 1
      · exact absurd (Nat.le_trans hhigh hpercent) hhigh'
      · exact Nat.zero_le 1
      · exact Nat.le_refl 0

theorem playerRatioDemand_mono (g : Group) {loads loads' : List Load}
    (h : List.Forall₂ Load.Fuller loads loads') :
    playerRatioDemand g loads ≤ playerRatioDemand g loads' := by
  have hhigh := length_highLoads_le_of_fuller g.newInstanceRatio.toNat h
  rw [playerRatioDemand, playerRatioDemand, h.length_eq]
  omega

namespace Group

variable {g : Group} {loads loads' : List Load} {extra : Nat}

theorem shortfall_eq_of_fuller (g : Group) (h : List.Forall₂ Load.Fuller loads loads') :
    g.shortfall loads' = g.shortfall loads := by
  rw [shortfall, shortfall, h.length_eq]

theorem enough_of_fuller (h : List.Forall₂ Load.Fuller loads loads') (henough : g.Enough loads' extra) :
    g.Enough loads extra := by
  have hfree := Load.total_free_le_of_fuller h
  rw [Enough, Sufficient] at henough ⊢
  rw [← Load.total_slots_of_fuller h]
  exact Nat.le_trans henough (Nat.mul_le_mul_left _ (Nat.add_le_add_right hfree _))

theorem slotRatioDemand_mono (hg : g.Bounded) (h : List.Forall₂ Load.Fuller loads loads') :
    slotRatioDemand g loads ≤ slotRatioDemand g loads' := by
  rcases Nat.eq_or_lt_of_le (slotRatioDemand_le hg loads') with hlast | hlt
  · rw [hlast]
    exact slotRatioDemand_le hg loads
  · have hfloor := shortfall_le_slotRatioDemand hg loads'
    have henough := (slotRatioDemand_le_iff hg hfloor hlt).mp (Nat.le_refl _)
    rw [shortfall_eq_of_fuller g h] at hfloor
    exact (slotRatioDemand_le_iff hg hfloor hlt).mpr (enough_of_fuller h henough)

/-!
# One more server
-/

theorem enough_append (g : Group) (loads : List Load) (extra : Nat) :
    g.Enough (loads ++ [g.freshLoad]) extra ↔ g.Enough loads (extra + 1) := by
  have hone (amount : Load → Nat) (hfresh : amount g.freshLoad = g.maxPlayers.toNat) :
      Load.total amount (loads ++ [g.freshLoad]) + extra * g.maxPlayers.toNat =
        Load.total amount loads + (extra + 1) * g.maxPlayers.toNat := by
    rw [Load.total_append, Load.total, Load.total, hfresh, Nat.add_mul, Nat.one_mul]
    omega
  rw [Enough, Enough, Sufficient, Sufficient, hone Load.slots rfl, hone Load.free rfl]

theorem shortfall_append (g : Group) (loads : List Load) :
    g.shortfall (loads ++ [g.freshLoad]) = g.shortfall loads - 1 := by
  rw [shortfall, shortfall, List.length_append, List.length_singleton, Nat.sub_add_eq]

/-- If the share of free slots is reached with the servers that are asked for, a new one takes one off. -/
theorem slotRatioDemand_append_one (hg : g.Bounded) (henough : g.Enough loads (slotRatioDemand g loads)) :
    slotRatioDemand g (loads ++ [g.freshLoad]) = slotRatioDemand g loads - 1 := by
  have hle := slotRatioDemand_le hg loads
  have hfloor := shortfall_le_slotRatioDemand hg loads
  have hle' := slotRatioDemand_le hg (loads ++ [g.freshLoad])
  have hfloor' := shortfall_le_slotRatioDemand hg (loads ++ [g.freshLoad])
  rw [shortfall_append] at hfloor'
  apply Nat.le_antisymm
  · rcases Nat.eq_or_lt_of_le (Nat.le_trans (Nat.sub_le _ 1) hle) with hlast | hlt
    · rw [hlast]
      exact hle'
    · rw [slotRatioDemand_le_iff hg _ hlt, enough_append]
      · exact henough.mono hg (Nat.le_add_of_sub_le (Nat.le_refl _))
      · rw [shortfall_append]
        exact Nat.sub_le_sub_right hfloor 1
  -- With less than that before the new server the search would have ended earlier.
  · apply Nat.le_of_not_lt
    intro hless
    have hearlier : slotRatioDemand g (loads ++ [g.freshLoad]) + 1 < slotRatioDemand g loads :=
      Nat.add_lt_of_lt_sub hless
    have hlast : slotRatioDemand g (loads ++ [g.freshLoad]) < g.maxOnline.toNat := by
      omega
    have hreached : g.Enough loads (slotRatioDemand g (loads ++ [g.freshLoad]) + 1) := by
      rw [← enough_append, ← slotRatioDemand_le_iff hg _ hlast]
      rw [shortfall_append]
      exact hfloor'
    have hended : slotRatioDemand g loads ≤ slotRatioDemand g (loads ++ [g.freshLoad]) + 1 := by
      rw [slotRatioDemand_le_iff hg _ (Nat.lt_of_lt_of_le hearlier hle)]
      · exact hreached
      · omega
    exact Nat.not_le_of_lt hearlier hended

/-!
# Both policies
-/

/-- The demand of a valid group does not fall when servers get fuller and does not depend on their order.  A
new empty server takes one off it while there is any, if the share of free slots is reached with the
servers that are asked for. -/
theorem demand_is_monotone {g : Group} (hg : g.validate = .ok ())
    (hratio : g.policy = .playerRatio → 0 < g.newInstanceRatio.toNat) (loads : List Load) :
    (∀ loads', List.Forall₂ Load.Fuller loads loads' → g.demand loads ≤ g.demand loads') ∧
    (∀ loads', loads.Perm loads' → g.demand loads' = g.demand loads) ∧
    ((g.policy = .slotRatio → g.Enough loads (g.demand loads)) →
      (∀ d, g.demand loads = d + 1 → g.demand (loads ++ [g.freshLoad]) = d) ∧
      (g.demand loads = 0 → g.demand (loads ++ [g.freshLoad]) = 0)) := by
  have hbounded := bounded_of_validate hg
  refine ⟨?_, ?_, ?_⟩
  · intro loads' hfuller
    rw [demand, demand]
    cases g.policy with
    | playerRatio =>
        exact playerRatioDemand_mono g hfuller
    | slotRatio =>
        exact slotRatioDemand_mono hbounded hfuller
  · intro loads' hperm
    exact (demand_perm g hperm).symm
  · intro henough
    have hone : g.demand (loads ++ [g.freshLoad]) = g.demand loads - 1 := by
      rw [demand] at henough
      rw [demand, demand]
      cases hpolicy : g.policy with
      | playerRatio =>
          exact playerRatioDemand_append hbounded (hratio hpolicy) loads 1
      | slotRatio =>
          rw [hpolicy] at henough
          exact slotRatioDemand_append_one hbounded (henough rfl)
    constructor
    · intro d hd
      rw [hone, hd, Nat.add_sub_cancel]
    · intro hzero
      rw [hone, hzero]

theorem demand_is_monotone_crowded :
    roomy.demand crowded = 3 ∧ 3 ≤ roomy.demand [⟨9, 10⟩, ⟨10, 10⟩, ⟨9, 10⟩] ∧
      roomy.demand (crowded ++ [roomy.freshLoad]) = 2 := by
  have hvalid : roomy.validate = .ok () := by
    decide +kernel
  have hdemand : roomy.demand crowded = 3 := by
    decide
  have hfuller : List.Forall₂ Load.Fuller crowded [⟨9, 10⟩, ⟨10, 10⟩, ⟨9, 10⟩] := by
    refine .cons ?_ (.cons ?_ (.cons ?_ .nil)) <;> exact ⟨rfl, by decide⟩
  rcases demand_is_monotone hvalid (fun hpolicy => nomatch hpolicy) crowded with ⟨hmono, _, hpays⟩
  rw [hdemand] at hmono hpays
  exact ⟨hdemand, hmono _ hfuller, (hpays fun _ => by decide).left 2 rfl⟩

end Group
end ServerFleet
