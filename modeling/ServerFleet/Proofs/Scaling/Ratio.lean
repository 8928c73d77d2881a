import Mathlib.Data.Nat.PSub
import ServerFleet.Model.Server
import ServerFleet.Scaling

/-!
# Servers at the ratio

Whether a server counts as about to fill up is decided by a percentage that is rounded down
and cut off at the end of a word.  The ratio that it is compared with is a whole number and a
word itself, so neither makes a difference, and the demand is the minimum without the servers
that are truly below the ratio.
-/

namespace ServerFleet

/-!
# Percentages
-/

def cutOff (n : Nat) : UInt32 :=
  UInt32.ofNat (min (UInt32.size - 1) n)

theorem toNat_cutOff (n : Nat) : (cutOff n).toNat = min (UInt32.size - 1) n := by
  have hsize : UInt32.size = 4294967296 := rfl
  exact UInt32.toNat_ofNat_of_lt' (by omega)

/-- Rounding down and cutting off do not carry a load across a ratio that is a word. -/
theorem Load.le_percent_iff {ratio : Nat} (hratio : ratio < UInt32.size) (l : Load) :
    ratio ≤ l.percent ↔
      l.slots = 0 ∧ ratio ≤ 100 ∨ 0 < l.slots ∧ ratio * l.slots ≤ 100 * l.players := by
  rw [percent]
  split
  next hnone =>
    simp [hnone]
  next hslots =>
    have hpos : 0 < l.slots := Nat.pos_of_ne_zero hslots
    rw [Nat.le_min, and_iff_right (Nat.le_sub_one_of_lt hratio), Nat.le_div_iff_mul_le hpos,
      Nat.mul_comm l.players]
    simp [hslots, hpos]

namespace Server

/-- The load of a server in percent as it is computed, in words: of 64 bits for the division, and then cut
off. -/
def percentWord (s : Server) : UInt32 :=
  if s.maxPlayers = 0 then 100
  else cutOff (s.playerCount.toUInt64 * 100 / s.maxPlayers.toUInt64).toNat

def High (ratio : UInt32) (s : Server) : Prop :=
  s.maxPlayers = 0 ∧ ratio ≤ 100 ∨
    0 < s.maxPlayers ∧ ratio.toNat * s.maxPlayers.toNat ≤ 100 * s.playerCount.toNat

instance (ratio : UInt32) : DecidablePred (High ratio) :=
  fun _ => inferInstanceAs (Decidable (_ ∨ _))

theorem toNat_percentWord (s : Server) : s.percentWord.toNat = s.load.percent := by
  rw [percentWord, Load.percent]
  by_cases hslots : s.maxPlayers = 0
  · have hnone : s.load.slots = 0 := congrArg UInt32.toNat hslots
    rw [if_pos hslots, if_pos hnone]
    rfl
  · have hsome : s.load.slots ≠ 0 := fun hzero => hslots (UInt32.toNat_inj.mp hzero)
    have hplayers : s.playerCount.toNat < 4294967296 := s.playerCount.toNat_lt
    have hproduct : (s.playerCount.toUInt64 * 100).toNat = s.playerCount.toNat * 100 := by
      have hhundred : (100 : UInt64).toNat = 100 := rfl
      rw [UInt64.toNat_mul, UInt32.toNat_toUInt64, hhundred]
      exact Nat.mod_eq_of_lt (by omega)
    rw [if_neg hslots, if_neg hsome, toNat_cutOff, UInt64.toNat_div, hproduct, UInt32.toNat_toUInt64]
    rfl

theorem high_iff (ratio : UInt32) (s : Server) : s.High ratio ↔ ratio.toNat ≤ s.load.percent := by
  rw [Load.le_percent_iff ratio.toNat_lt, High, ← UInt32.toNat_inj, UInt32.le_iff_toNat_le,
    UInt32.lt_iff_toNat_lt]
  rfl

theorem le_percentWord_iff (ratio : UInt32) (s : Server) : ratio ≤ s.percentWord ↔ s.High ratio := by
  rw [UInt32.le_iff_toNat_le, toNat_percentWord, high_iff]

end Server

/-!
# The servers that are missing
-/

theorem length_highLoads (ratio : UInt32) (available : List Server) :
    (highLoads ratio.toNat (available.map Server.load)).length = available.countP (Server.High ratio) := by
  rw [highLoads, ← List.countP_eq_length_filter, List.countP_map]
  apply List.countP_congr
  intro s _
  simp [Server.high_iff]

namespace Group

/-- The servers that a group is missing to its minimum, as they are counted.  A difference is only there if
it does not go below zero. -/
def missingServers (g : Group) (available : List Server) : Option UInt32 := do
  let high := (available.filter fun s => g.newInstanceRatio ≤ s.percentWord).length
  let low ← available.length.psub high
  let desired ←
    if low < g.minOnline.toNat then (g.minOnline.toNat.psub low).map (available.length + ·)
    else some available.length
  (desired.psub available.length).map cutOff

theorem missingServers_eq (g : Group) (available : List Server) :
    g.missingServers available = some (cutOff (playerRatioDemand g (available.map Server.load))) := by
  have hhigh : (available.filter fun s => g.newInstanceRatio ≤ s.percentWord).length =
      (highLoads g.newInstanceRatio.toNat (available.map Server.load)).length := by
    rw [length_highLoads, ← List.countP_eq_length_filter]
    simp only [Server.le_percentWord_iff]
  have hle : (highLoads g.newInstanceRatio.toNat (available.map Server.load)).length ≤
      available.length := by
    rw [length_highLoads]
    exact List.countP_le_length
  rw [missingServers, playerRatioDemand, List.length_map, hhigh]
  generalize (highLoads g.newInstanceRatio.toNat (available.map Server.load)).length = high at *
  simp only [Nat.psub_eq_sub hle, Option.bind_eq_bind, Option.bind_some]
  split
  next hlow =>
    rw [Nat.psub_eq_sub (Nat.le_of_lt hlow), Option.map_some, Option.bind_some,
      Nat.psub_eq_sub (Nat.le_add_right _ _), Option.map_some, Nat.add_sub_cancel_left]
  next hlow =>
    rw [Nat.psub_eq_sub (Nat.le_refl _), Option.map_some, Nat.sub_self,
      Nat.sub_eq_zero_of_le (Nat.le_of_not_lt hlow)]

theorem playerRatioDemand_eq (g : Group) (available : List Server) :
    playerRatioDemand g (available.map Server.load) =
      g.minOnline.toNat - available.countP fun s => ¬ s.High g.newInstanceRatio := by
  have hlow : available.length = available.countP (Server.High g.newInstanceRatio) +
      available.countP fun s => ¬ s.High g.newInstanceRatio := by
    simpa using available.length_eq_countP_add_countP fun s => decide (s.High g.newInstanceRatio)
  rw [playerRatioDemand, length_highLoads, List.length_map, hlow, Nat.add_sub_cancel_left]

/-- The demand of a group with a player ratio is its minimum without the servers below the ratio, whatever
the loads are: the percentage that is computed tells the high servers from the low ones as exact
shares do, and no difference that is taken on the way goes below zero. -/
theorem playerRatioDemand_is_exact (g : Group) (available : List Server) :
    (∀ s : Server, s.percentWord.toNat = s.load.percent ∧
      (g.newInstanceRatio ≤ s.percentWord ↔ s.High g.newInstanceRatio)) ∧
    ∃ missing : UInt32, g.missingServers available = some missing ∧
      missing.toNat = playerRatioDemand g (available.map Server.load) ∧
      missing.toNat = g.minOnline.toNat - available.countP (fun s => ¬ s.High g.newInstanceRatio) ∧
      missing ≤ g.minOnline := by
  have hle : playerRatioDemand g (available.map Server.load) ≤ g.minOnline.toNat := Nat.sub_le _ _
  have hword : (cutOff (playerRatioDemand g (available.map Server.load))).toNat =
      playerRatioDemand g (available.map Server.load) := by
    rw [toNat_cutOff]
    exact Nat.min_eq_right (Nat.le_sub_one_of_lt (Nat.lt_of_le_of_lt hle g.minOnline.toNat_lt))
  refine ⟨?_, cutOff (playerRatioDemand g (available.map Server.load)), missingServers_eq g available,
    hword, ?_, ?_⟩
  · intro s
    exact ⟨s.toNat_percentWord, s.le_percentWord_iff g.newInstanceRatio⟩
  · rw [hword, playerRatioDemand_eq]
  · rw [UInt32.le_iff_toNat_le, hword]
    exact hle

end Group
end ServerFleet
