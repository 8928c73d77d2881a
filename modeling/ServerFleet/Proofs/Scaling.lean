import Mathlib.Tactic.SplitIfs
import ServerFleet.Scaling

/-!
# The demand is met

When a group gets the servers that its policy asks for, all of them empty, the policy
asks for no more.  With less than that the group is at its cap.
-/

namespace ServerFleet

/-!
# Loads
-/

namespace Load

theorem total_append (amount : Load → Nat) (loads more : List Load) :
    total amount (loads ++ more) = total amount loads + total amount more := by
  induction loads with
  | nil =>
      rw [List.nil_append, total, Nat.zero_add]
  | cons l rest ih =>
      rw [List.cons_append, total, total, ih, Nat.add_assoc]

theorem total_replicate (amount : Load → Nat) (n : Nat) (l : Load) :
    total amount (List.replicate n l) = n * amount l := by
  induction n with
  | zero =>
      rw [List.replicate_zero, total, Nat.zero_mul]
  | succ n ih =>
      rw [List.replicate_succ, total, ih, Nat.succ_mul, Nat.add_comm]

theorem total_perm (amount : Load → Nat) {loads loads' : List Load} (h : loads.Perm loads') :
    total amount loads = total amount loads' := by
  induction h with
  | nil =>
      rfl
  | cons l _ ih =>
      rw [total, total, ih]
  | swap l l' rest =>
      simp only [total]
      omega
  | trans _ _ ih ih' =>
      exact ih.trans ih'

end Load

/-!
# The least number that suffices
-/

section

variable {ratio perServer total free extra : Nat}

theorem Sufficient.mono (h : Sufficient ratio perServer total free extra) (hratio : ratio ≤ 100)
    {more : Nat} (hmore : extra ≤ more) : Sufficient ratio perServer total free more := by
  rw [Sufficient, Nat.mul_add, Nat.mul_add] at h ⊢
  have hslots : more * perServer = extra * perServer + (more - extra) * perServer := by
    rw [← Nat.add_mul, Nat.add_sub_cancel' hmore]
  have hadded : ratio * ((more - extra) * perServer) ≤ 100 * ((more - extra) * perServer) :=
    Nat.mul_le_mul_right _ hratio
  rw [hslots, Nat.mul_add, Nat.mul_add]
  omega

theorem le_divUp_mul (n : Nat) {d : Nat} (hd : 0 < d) : n ≤ divUp n d * d := by
  have hrest := Nat.mod_lt (n + d - 1) hd
  have hsplit := Nat.div_add_mod' (n + d - 1) d
  rw [divUp]
  omega

theorem sufficient_divUp (hratio : ratio ≤ 100) (hopens : 0 < (100 - ratio) * perServer) :
    Sufficient ratio perServer total free
      (divUp (ratio * total - 100 * free) ((100 - ratio) * perServer)) := by
  have hcovers := le_divUp_mul (ratio * total - 100 * free) hopens
  generalize divUp (ratio * total - 100 * free) ((100 - ratio) * perServer) = extra at *
  have hopened : extra * ((100 - ratio) * perServer) + ratio * (extra * perServer) =
      100 * (extra * perServer) := by
    rw [Nat.mul_left_comm, ← Nat.add_mul, Nat.sub_add_cancel hratio]
  rw [Sufficient, Nat.mul_add, Nat.mul_add]
  omega

theorem leastSufficient_cases (hratio : ratio ≤ 100) (floor cap : Nat) :
    leastSufficient ratio perServer total free floor cap = cap ∨
      floor ≤ leastSufficient ratio perServer total free floor cap ∧
        Sufficient ratio perServer total free
          (leastSufficient ratio perServer total free floor cap) := by
  rw [leastSufficient]
  split
  next hfloor =>
    exact Or.inr ⟨Nat.le_refl floor, hfloor⟩
  next hfloor =>
    split
    next =>
      exact Or.inl rfl
    next hopens =>
      have hsufficient : Sufficient ratio perServer total free
          (divUp (ratio * total - 100 * free) ((100 - ratio) * perServer)) :=
        sufficient_divUp hratio (Nat.pos_of_ne_zero hopens)
      generalize divUp (ratio * total - 100 * free) ((100 - ratio) * perServer) = extra at *
      by_cases hcap : cap ≤ extra
      · exact Or.inl (Nat.min_eq_left hcap)
      · rw [Nat.min_eq_right (Nat.le_of_not_le hcap)]
        -- The floor itself does not suffice, so what does is beyond it.
        have hbeyond : floor ≤ extra := Nat.le_of_not_lt fun hbelow =>
          hfloor (hsufficient.mono hratio (Nat.le_of_lt hbelow))
        exact Or.inr ⟨hbeyond, hsufficient⟩

end

/-!
# Valid groups
-/

structure Group.Bounded (g : Group) : Prop where
  online : g.minOnline.toNat ≤ g.maxOnline.toNat
  players : 0 < g.maxPlayers.toNat
  ratio : g.newInstanceRatio.toNat ≤ 100

theorem Group.bounded_of_validate {g : Group} (h : g.validate = .ok ()) : g.Bounded := by
  rw [validate] at h
  split_ifs at h with _ _ _ honline hplayers hratio
  constructor
  case online =>
    exact UInt32.le_iff_toNat_le.mp (UInt32.not_lt.mp honline)
  case players =>
    apply Nat.pos_of_ne_zero
    intro hzero
    exact hplayers (UInt32.toNat_inj.mp hzero)
  case ratio =>
    exact UInt32.le_iff_toNat_le.mp (UInt32.not_lt.mp hratio)

/-!
# What is asked for is enough
-/

def Group.freshLoad (g : Group) : Load :=
  ⟨0, g.maxPlayers.toNat⟩

theorem playerRatioDemand_perm (g : Group) {loads loads' : List Load} (h : loads.Perm loads') :
    playerRatioDemand g loads = playerRatioDemand g loads' := by
  rw [playerRatioDemand, playerRatioDemand, highLoads, highLoads, h.length_eq, (h.filter _).length_eq]

theorem slotRatioDemand_perm (g : Group) {loads loads' : List Load} (h : loads.Perm loads') :
    slotRatioDemand g loads = slotRatioDemand g loads' := by
  rw [slotRatioDemand, slotRatioDemand, h.length_eq, Load.total_perm _ h, Load.total_perm _ h]

theorem Group.demand_perm (g : Group) {loads loads' : List Load} (h : loads.Perm loads') :
    g.demand loads = g.demand loads' := by
  rw [demand, demand]
  cases g.policy with
  | playerRatio =>
      exact playerRatioDemand_perm g h
  | slotRatio =>
      exact slotRatioDemand_perm g h

/-- An empty server is below the ratio, and so each new one takes one off the demand. -/
theorem playerRatioDemand_append {g : Group} (hg : g.Bounded) (hratio : 0 < g.newInstanceRatio.toNat)
    (loads : List Load) (n : Nat) :
    playerRatioDemand g (loads ++ List.replicate n g.freshLoad) = playerRatioDemand g loads - n := by
  have hlow : highLoads g.newInstanceRatio.toNat (List.replicate n g.freshLoad) = [] := by
    rw [highLoads, List.filter_eq_nil_iff]
    intro l hl hhigh
    rw [List.eq_of_mem_replicate hl, decide_eq_true_eq, Load.percent, Group.freshLoad,
      if_neg (Nat.ne_of_gt hg.players), Nat.zero_mul, Nat.zero_div] at hhigh
    omega
  have hle : (highLoads g.newInstanceRatio.toNat loads).length ≤ loads.length :=
    List.length_filter_le _ _
  rw [playerRatioDemand, playerRatioDemand, highLoads, List.filter_append, ← highLoads, ← highLoads, hlow,
    List.append_nil, List.length_append, List.length_replicate]
  omega

/-- With the servers that were asked for the share of free slots is reached, unless the search came to the
cap. -/
theorem slotRatioDemand_append {g : Group} (hg : g.Bounded) (loads : List Load) :
    g.maxOnline.toNat ≤ slotRatioDemand g loads ∨
      slotRatioDemand g (loads ++ List.replicate (slotRatioDemand g loads) g.freshLoad) = 0 := by
  have hcases : slotRatioDemand g loads = max g.maxOnline.toNat (g.minOnline.toNat - loads.length) ∨
      g.minOnline.toNat - loads.length ≤ slotRatioDemand g loads ∧
        Sufficient g.newInstanceRatio.toNat g.maxPlayers.toNat (Load.total Load.slots loads)
          (Load.total Load.free loads) (slotRatioDemand g loads) :=
    leastSufficient_cases hg.ratio _ _
  rcases hcases with hcap | ⟨hfloor, hsufficient⟩
  · rw [hcap]
    exact Or.inl (Nat.le_max_left _ _)
  · refine Or.inr ?_
    generalize slotRatioDemand g loads = n at *
    have hnone : g.minOnline.toNat - (loads ++ List.replicate n g.freshLoad).length = 0 := by
      rw [List.length_append, List.length_replicate]
      omega
    have hreached : Sufficient g.newInstanceRatio.toNat g.maxPlayers.toNat
        (Load.total Load.slots (loads ++ List.replicate n g.freshLoad))
        (Load.total Load.free (loads ++ List.replicate n g.freshLoad)) 0 := by
      rw [Load.total_append, Load.total_append, Load.total_replicate, Load.total_replicate]
      simpa [Sufficient, Group.freshLoad, Load.free] using hsufficient
    rw [slotRatioDemand, hnone, leastSufficient, if_pos hreached]

/-- A valid group that gets the servers it asks for, but no more than its cap allows, asks for no more or is
at its cap. -/
theorem Group.demand_append {g : Group} (hg : g.Bounded)
    (hratio : g.policy = .playerRatio → 0 < g.newInstanceRatio.toNat) (loads : List Load) (count : Nat) :
    let added := min (g.demand loads) (g.maxOnline.toNat - count)
    g.demand (loads ++ List.replicate added g.freshLoad) = 0 ∨ g.maxOnline.toNat ≤ count + added := by
  intro added
  by_cases hroom : g.demand loads ≤ g.maxOnline.toNat - count
  · have hadded : added = g.demand loads := Nat.min_eq_left hroom
    rw [hadded]
    cases hpolicy : g.policy with
    | playerRatio =>
        have hdemand (loads : List Load) : g.demand loads = playerRatioDemand g loads := by
          rw [demand, hpolicy]
        rw [hdemand, hdemand, playerRatioDemand_append hg (hratio hpolicy), Nat.sub_self]
        exact Or.inl rfl
    | slotRatio =>
        have hdemand (loads : List Load) : g.demand loads = slotRatioDemand g loads := by
          rw [demand, hpolicy]
        rw [hdemand, hdemand]
        rcases slotRatioDemand_append hg loads with hcap | hmet
        · exact Or.inr (Nat.le_trans hcap (Nat.le_add_left _ _))
        · exact Or.inl hmet
  · have hadded : added = g.maxOnline.toNat - count := Nat.min_eq_right (Nat.le_of_not_le hroom)
    refine Or.inr ?_
    omega

end ServerFleet
