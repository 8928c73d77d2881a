import Mathlib.Algebra.Order.Floor.Div
import Mathlib.Algebra.Order.Field.Rat
import Mathlib.Data.Rat.Floor
import Mathlib.Order.Bounds.Defs
import Mathlib.Tactic.Linarith
import ServerFleet.Proofs.Scaling

/-!
# The search for free slots

How many servers bring the share of free slots up to the ratio can be found by trying one
number after the other, from the floor upwards to the cap.  What such a search finds is
the least number that suffices, and it can be computed at once.
-/

namespace ServerFleet

/-!
# The least number that suffices
-/

section

variable {ratio perServer total free floor cap extra : Nat}

theorem divUp_le_iff {n d : Nat} (hd : 0 < d) : divUp n d ≤ extra ↔ n ≤ d * extra := by
  rw [divUp, ← Nat.ceilDiv_eq_add_pred_div, ceilDiv_le_iff_le_mul hd]

theorem sufficient_iff_missing_le (hratio : ratio ≤ 100) :
    Sufficient ratio perServer total free extra ↔
      ratio * total - 100 * free ≤ (100 - ratio) * perServer * extra := by
  have hopened : (100 - ratio) * perServer * extra + ratio * (extra * perServer) =
      100 * (extra * perServer) := by
    rw [Nat.mul_assoc, Nat.mul_comm perServer, ← Nat.add_mul, Nat.sub_add_cancel hratio]
  rw [Sufficient, Nat.mul_add, Nat.mul_add]
  omega

theorem leastSufficient_le (hcap : floor ≤ cap) :
    leastSufficient ratio perServer total free floor cap ≤ cap := by
  rw [leastSufficient]
  split
  next =>
    exact hcap
  next =>
    split
    next =>
      exact Nat.le_refl cap
    next =>
      exact Nat.min_le_left _ _

theorem floor_le_leastSufficient (hratio : ratio ≤ 100) (hcap : floor ≤ cap) :
    floor ≤ leastSufficient ratio perServer total free floor cap := by
  have hcases : leastSufficient ratio perServer total free floor cap = cap ∨
      floor ≤ leastSufficient ratio perServer total free floor cap ∧ _ :=
    leastSufficient_cases hratio floor cap
  rcases hcases with hlast | ⟨hfloor, _⟩
  · rw [hlast]
    exact hcap
  · exact hfloor

theorem leastSufficient_le_iff (hratio : ratio ≤ 100) (hfloor : floor ≤ extra) (hcap : extra < cap) :
    leastSufficient ratio perServer total free floor cap ≤ extra ↔
      Sufficient ratio perServer total free extra := by
  rw [leastSufficient]
  split
  next hreached =>
    exact iff_of_true hfloor (hreached.mono hratio hfloor)
  next hunreached =>
    split
    next hopens =>
      rw [sufficient_iff_missing_le hratio, hopens, Nat.zero_mul] at hunreached ⊢
      exact iff_of_false (Nat.not_le_of_lt hcap) hunreached
    next hopens =>
      rw [min_le_iff, or_iff_right (Nat.not_le_of_lt hcap), divUp_le_iff (Nat.pos_of_ne_zero hopens),
        sufficient_iff_missing_le hratio]

def firstPassing (test : Nat → Bool) (floor cap : Nat) : Nat :=
  ((List.range' floor (cap + 1 - floor)).find? test).getD cap

/-- A test has to tell right only as far as the search goes. -/
theorem firstPassing_eq_leastSufficient (hratio : ratio ≤ 100) (hcap : floor ≤ cap) {test : Nat → Bool}
    (htest : ∀ extra ≤ leastSufficient ratio perServer total free floor cap,
      test extra = true ↔ Sufficient ratio perServer total free extra) :
    firstPassing test floor cap = leastSufficient ratio perServer total free floor cap := by
  have hle : leastSufficient ratio perServer total free floor cap ≤ cap := leastSufficient_le hcap
  have hfloor : floor ≤ leastSufficient ratio perServer total free floor cap :=
    floor_le_leastSufficient hratio hcap
  have hbelow : ∀ extra, floor ≤ extra →
      extra < leastSufficient ratio perServer total free floor cap → test extra = false := by
    intro extra hextra hlt
    rw [← Bool.not_eq_true, htest extra (Nat.le_of_lt hlt),
      ← leastSufficient_le_iff hratio hextra (Nat.lt_of_lt_of_le hlt hle)]
    exact Nat.not_le_of_lt hlt
  have hcases : leastSufficient ratio perServer total free floor cap = cap ∨
      test (leastSufficient ratio perServer total free floor cap) = true := by
    refine (leastSufficient_cases hratio floor cap).imp_right ?_
    intro hreached
    exact (htest _ (Nat.le_refl _)).mpr hreached.right
  generalize leastSufficient ratio perServer total free floor cap = least at *
  cases hlast : test least with
  | true =>
      have hfound : (List.range' floor (cap + 1 - floor)).find? test = some least := by
        rw [List.find?_range'_eq_some, List.mem_range'_1]
        refine ⟨hlast, ⟨hfloor, by omega⟩, ?_⟩
        intro extra hextra hlt
        rw [hbelow extra hextra hlt]
        rfl
      rw [firstPassing, hfound, Option.getD_some]
  | false =>
      rw [hlast] at hcases
      have hsame : least = cap := hcases.resolve_right Bool.false_ne_true
      have hnone : (List.range' floor (cap + 1 - floor)).find? test = none := by
        rw [List.find?_range'_eq_none]
        intro extra hextra hlt
        have hupper : extra < least ∨ extra = least := by omega
        rcases hupper with hlt | rfl
        · rw [hbelow extra hextra hlt]
          rfl
        · rw [hlast]
          rfl
      rw [firstPassing, hnone, Option.getD_none, hsame]

end

/-!
# Words

Slots are counted in words of 64 bits.  While nothing overflows the words stand for the
numbers themselves.
-/

namespace Load

def totalWord (amount : Load → Nat) : List Load → UInt64
  | [] => 0
  | l :: rest => UInt64.ofNat (amount l) + totalWord amount rest

theorem toNat_totalWord {amount : Load → Nat} {loads : List Load}
    (h : total amount loads < UInt64.size) : (totalWord amount loads).toNat = total amount loads := by
  induction loads with
  | nil =>
      rfl
  | cons l rest ih =>
      rw [total] at h
      have hrest := ih (Nat.lt_of_le_of_lt (Nat.le_add_left _ _) h)
      rw [totalWord, UInt64.toNat_add, hrest,
        UInt64.toNat_ofNat_of_lt' (Nat.lt_of_le_of_lt (Nat.le_add_right _ _) h), total]
      exact Nat.mod_eq_of_lt h

theorem free_le_slots (l : Load) : l.free ≤ l.slots :=
  Nat.sub_le _ _

theorem total_free_le (loads : List Load) : total free loads ≤ total slots loads := by
  induction loads with
  | nil =>
      exact Nat.le_refl 0
  | cons l rest ih =>
      exact Nat.add_le_add l.free_le_slots ih

theorem total_slots_le_free_iff (loads : List Load) :
    total slots loads ≤ total free loads ↔ ∀ l ∈ loads, l.free = l.slots := by
  induction loads with
  | nil =>
      exact iff_of_true (Nat.le_refl 0) (List.forall_mem_nil _)
  | cons l rest ih =>
      have hfirst := l.free_le_slots
      have hrest := total_free_le rest
      rw [List.forall_mem_cons, ← ih, total, total]
      omega

end Load

namespace Group

def shortfall (g : Group) (loads : List Load) : Nat :=
  g.minOnline.toNat - loads.length

def Enough (g : Group) (loads : List Load) (extra : Nat) : Prop :=
  Sufficient g.newInstanceRatio.toNat g.maxPlayers.toNat (Load.total Load.slots loads)
    (Load.total Load.free loads) extra

instance (g : Group) (loads : List Load) (extra : Nat) : Decidable (g.Enough loads extra) :=
  inferInstanceAs (Decidable (Sufficient _ _ _ _ _))

def enoughWord (g : Group) (loads : List Load) (extra : Nat) : Bool :=
  let added := UInt64.ofNat extra * g.maxPlayers.toUInt64
  let slots := Load.totalWord Load.slots loads + added
  let free := Load.totalWord Load.free loads + added
  g.newInstanceRatio.toUInt64 * slots ≤ free * 100

/-- No word overflows when some further servers are tried. -/
structure FitsWords (g : Group) (loads : List Load) (extra : Nat) : Prop where
  slots : Load.total Load.slots loads + extra * g.maxPlayers.toNat < UInt64.size
  share : g.newInstanceRatio.toNat *
    (Load.total Load.slots loads + extra * g.maxPlayers.toNat) < UInt64.size
  free : (Load.total Load.free loads + extra * g.maxPlayers.toNat) * 100 < UInt64.size

/-- The number found by trying one after the other in words. -/
def searchSlots (g : Group) (loads : List Load) : Nat :=
  firstPassing (g.enoughWord loads) (g.shortfall loads) (max g.maxOnline.toNat (g.shortfall loads))

variable {g : Group} {loads : List Load} {extra : Nat}

theorem FitsWords.of_le {more : Nat} (h : g.FitsWords loads more) (hle : extra ≤ more) :
    g.FitsWords loads extra := by
  have hadded : extra * g.maxPlayers.toNat ≤ more * g.maxPlayers.toNat := Nat.mul_le_mul_right _ hle
  constructor
  case slots =>
    exact Nat.lt_of_le_of_lt (Nat.add_le_add_left hadded _) h.slots
  case share =>
    exact Nat.lt_of_le_of_lt (Nat.mul_le_mul_left _ (Nat.add_le_add_left hadded _)) h.share
  case free =>
    exact Nat.lt_of_le_of_lt (Nat.mul_le_mul_right _ (Nat.add_le_add_left hadded _)) h.free

theorem enoughWord_iff (hg : g.Bounded) (h : g.FitsWords loads extra) :
    g.enoughWord loads extra = true ↔ g.Enough loads extra := by
  have hslots := h.slots
  have hshare := h.share
  have hfree := h.free
  have hextra : extra < UInt64.size := by
    have hle : extra * 1 ≤ extra * g.maxPlayers.toNat := Nat.mul_le_mul_left _ hg.players
    omega
  have hadded : (UInt64.ofNat extra * g.maxPlayers.toUInt64).toNat = extra * g.maxPlayers.toNat := by
    rw [UInt64.toNat_mul, UInt64.toNat_ofNat_of_lt' hextra, UInt32.toNat_toUInt64]
    exact Nat.mod_eq_of_lt (Nat.lt_of_le_of_lt (Nat.le_add_left _ _) hslots)
  have hall : (Load.totalWord Load.slots loads + UInt64.ofNat extra * g.maxPlayers.toUInt64).toNat =
      Load.total Load.slots loads + extra * g.maxPlayers.toNat := by
    rw [UInt64.toNat_add, hadded,
      Load.toNat_totalWord (Nat.lt_of_le_of_lt (Nat.le_add_right _ _) hslots)]
    exact Nat.mod_eq_of_lt hslots
  have hopen : (Load.totalWord Load.free loads + UInt64.ofNat extra * g.maxPlayers.toUInt64).toNat =
      Load.total Load.free loads + extra * g.maxPlayers.toNat := by
    have hle := Load.total_free_le loads
    rw [UInt64.toNat_add, hadded, Load.toNat_totalWord (by omega)]
    exact Nat.mod_eq_of_lt (Nat.lt_of_le_of_lt (Nat.add_le_add_right hle _) hslots)
  rw [enoughWord, decide_eq_true_iff, UInt64.le_iff_toNat_le, UInt64.toNat_mul, UInt64.toNat_mul, hall,
    hopen, UInt32.toNat_toUInt64, Enough, Sufficient, Nat.mul_comm 100]
  rw [show (100 : UInt64).toNat = 100 from rfl, Nat.mod_eq_of_lt hshare, Nat.mod_eq_of_lt hfree]

/-!
# The demand for free slots
-/

theorem Enough.mono (hg : g.Bounded) (h : g.Enough loads extra) {more : Nat} (hle : extra ≤ more) :
    g.Enough loads more :=
  Sufficient.mono h hg.ratio hle

theorem shortfall_le (hg : g.Bounded) (loads : List Load) : g.shortfall loads ≤ g.maxOnline.toNat :=
  Nat.le_trans (Nat.sub_le _ _) hg.online

theorem slotRatioDemand_eq (hg : g.Bounded) (loads : List Load) :
    slotRatioDemand g loads =
      leastSufficient g.newInstanceRatio.toNat g.maxPlayers.toNat (Load.total Load.slots loads)
        (Load.total Load.free loads) (g.shortfall loads) g.maxOnline.toNat := by
  have hcap : max g.maxOnline.toNat (g.minOnline.toNat - loads.length) = g.maxOnline.toNat :=
    Nat.max_eq_left (shortfall_le hg loads)
  rw [slotRatioDemand, hcap, shortfall]

theorem slotRatioDemand_le (hg : g.Bounded) (loads : List Load) :
    slotRatioDemand g loads ≤ g.maxOnline.toNat := by
  rw [slotRatioDemand_eq hg]
  exact leastSufficient_le (shortfall_le hg loads)

theorem shortfall_le_slotRatioDemand (hg : g.Bounded) (loads : List Load) :
    g.shortfall loads ≤ slotRatioDemand g loads := by
  rw [slotRatioDemand_eq hg]
  exact floor_le_leastSufficient hg.ratio (shortfall_le hg loads)

theorem slotRatioDemand_le_iff (hg : g.Bounded) (hfloor : g.shortfall loads ≤ extra)
    (hcap : extra < g.maxOnline.toNat) : slotRatioDemand g loads ≤ extra ↔ g.Enough loads extra := by
  rw [slotRatioDemand_eq hg, leastSufficient_le_iff hg.ratio hfloor hcap, Enough]

theorem searchSlots_eq (hg : g.Bounded) (h : g.FitsWords loads (slotRatioDemand g loads)) :
    g.searchSlots loads = slotRatioDemand g loads := by
  rw [searchSlots, Nat.max_eq_left (shortfall_le hg loads)]
  rw [slotRatioDemand_eq hg] at h ⊢
  apply firstPassing_eq_leastSufficient hg.ratio (shortfall_le hg loads)
  intro extra hle
  exact enoughWord_iff hg (h.of_le hle)

/-- With a ratio below 100 every server makes up for some of the missing slots, and as many are needed as
make up for all of them. -/
theorem slotRatioDemand_eq_ceil (hg : g.Bounded) (hratio : g.newInstanceRatio.toNat < 100)
    (loads : List Load) :
    (slotRatioDemand g loads : ℤ) = min (g.maxOnline.toNat : ℤ) (max (g.shortfall loads : ℤ)
      ⌈((g.newInstanceRatio.toNat * Load.total Load.slots loads : ℚ) -
          100 * Load.total Load.free loads) /
        ((100 - g.newInstanceRatio.toNat) * g.maxPlayers.toNat)⌉) := by
  have hplayers : (0 : ℚ) < g.maxPlayers.toNat := Nat.cast_pos.mpr hg.players
  have hopens : (0 : ℚ) < (100 - g.newInstanceRatio.toNat) * g.maxPlayers.toNat := by
    apply mul_pos _ hplayers
    rw [sub_pos]
    exact_mod_cast hratio
  have hle := slotRatioDemand_le hg loads
  have hfloor := shortfall_le_slotRatioDemand hg loads
  have henough (extra : Nat) :
      ⌈((g.newInstanceRatio.toNat * Load.total Load.slots loads : ℚ) -
          100 * Load.total Load.free loads) /
        ((100 - g.newInstanceRatio.toNat) * g.maxPlayers.toNat)⌉ ≤ (extra : ℤ) ↔
        g.Enough loads extra := by
    rw [Int.ceil_le, div_le_iff₀ hopens, Int.cast_natCast, Enough, Sufficient, ← Nat.cast_le (α := ℚ)]
    push_cast
    constructor
    · intro h
      linarith
    · intro h
      linarith
  generalize ⌈((g.newInstanceRatio.toNat * Load.total Load.slots loads : ℚ) -
      100 * Load.total Load.free loads) /
    ((100 - g.newInstanceRatio.toNat) * g.maxPlayers.toNat)⌉ = needed at *
  -- The demand is enough unless it is the cap, and the number before it is not.
  have hreached : slotRatioDemand g loads = g.maxOnline.toNat ∨
      needed ≤ (slotRatioDemand g loads : ℤ) := by
    rcases Nat.eq_or_lt_of_le hle with hlast | hlt
    · exact Or.inl hlast
    · exact Or.inr ((henough _).mpr ((slotRatioDemand_le_iff hg hfloor hlt).mp (Nat.le_refl _)))
  have hbefore : slotRatioDemand g loads = g.shortfall loads ∨
      ¬ needed ≤ ((slotRatioDemand g loads - 1 : Nat) : ℤ) := by
    rcases Nat.eq_or_lt_of_le hfloor with hfirst | hlt
    · exact Or.inl hfirst.symm
    · refine Or.inr ?_
      rw [henough, ← slotRatioDemand_le_iff hg (Nat.le_sub_one_of_lt hlt) (by omega)]
      omega
  omega

/-- With a ratio of 100 no number of servers makes up for a slot that is taken. -/
theorem slotRatioDemand_eq_of_ratio (hg : g.Bounded) (hratio : g.newInstanceRatio.toNat = 100)
    (loads : List Load) [Decidable (∀ l ∈ loads, l.free = l.slots)] :
    slotRatioDemand g loads =
      if ∀ l ∈ loads, l.free = l.slots then g.shortfall loads else g.maxOnline.toNat := by
  have henough (extra : Nat) : Sufficient 100 g.maxPlayers.toNat (Load.total Load.slots loads)
      (Load.total Load.free loads) extra ↔ ∀ l ∈ loads, l.free = l.slots := by
    rw [← Load.total_slots_le_free_iff, Sufficient]
    omega
  rw [slotRatioDemand_eq hg, leastSufficient, hratio, Nat.sub_self, Nat.zero_mul, if_pos rfl]
  exact if_congr (henough _) rfl rfl

/-- The demand of a valid group for free slots is the least number from its shortfall upwards that is enough,
if its cap allows for as many, and its cap if not.  Whatever is enough stays so with more servers, and
so the number is the one found by trying one after the other, as long as no word overflows, and the
one that is computed. -/
theorem slotRatioDemand_is_least {g : Group} (hg : g.validate = .ok ()) (loads : List Load) :
    (∀ extra more, extra ≤ more → g.Enough loads extra → g.Enough loads more) ∧
    (∀ extra ≤ g.maxOnline.toNat, IsLeast {e | g.shortfall loads ≤ e ∧ g.Enough loads e} extra →
      slotRatioDemand g loads = extra) ∧
    ((∀ extra ≤ g.maxOnline.toNat, g.shortfall loads ≤ extra → ¬ g.Enough loads extra) →
      slotRatioDemand g loads = g.maxOnline.toNat) ∧
    (g.FitsWords loads (slotRatioDemand g loads) →
      g.searchSlots loads = slotRatioDemand g loads) ∧
    (g.newInstanceRatio.toNat < 100 →
      (slotRatioDemand g loads : ℤ) = min (g.maxOnline.toNat : ℤ) (max (g.shortfall loads : ℤ)
        ⌈((g.newInstanceRatio.toNat * Load.total Load.slots loads : ℚ) -
            100 * Load.total Load.free loads) /
          ((100 - g.newInstanceRatio.toNat) * g.maxPlayers.toNat)⌉)) ∧
    (g.newInstanceRatio.toNat = 100 →
      ((∀ l ∈ loads, l.free = l.slots) → slotRatioDemand g loads = g.shortfall loads) ∧
      ((∃ l ∈ loads, l.free ≠ l.slots) → slotRatioDemand g loads = g.maxOnline.toNat)) := by
  have hbounded := bounded_of_validate hg
  have hle := slotRatioDemand_le hbounded loads
  have hfloor := shortfall_le_slotRatioDemand hbounded loads
  refine ⟨?_, ?_, ?_, ?_, ?_, ?_⟩
  · intro extra more hmore henough
    exact henough.mono hbounded hmore
  · intro extra hcap hleast
    rcases hleast with ⟨⟨hextra, henough⟩, hlower⟩
    apply Nat.le_antisymm
    · rcases Nat.eq_or_lt_of_le hcap with rfl | hlt
      · exact hle
      · exact (slotRatioDemand_le_iff hbounded hextra hlt).mpr henough
    · rcases Nat.eq_or_lt_of_le hle with hlast | hlt
      · exact hlast ▸ hcap
      · exact hlower ⟨hfloor, (slotRatioDemand_le_iff hbounded hfloor hlt).mp (Nat.le_refl _)⟩
  · intro hnone
    refine (Nat.eq_or_lt_of_le hle).resolve_right ?_
    intro hlt
    exact hnone _ hle hfloor ((slotRatioDemand_le_iff hbounded hfloor hlt).mp (Nat.le_refl _))
  · exact searchSlots_eq hbounded
  · intro hratio
    exact slotRatioDemand_eq_ceil hbounded hratio loads
  · intro hratio
    classical
    have hdemand := slotRatioDemand_eq_of_ratio hbounded hratio loads
    constructor
    · intro hall
      rw [hdemand, if_pos hall]
    · intro hsome
      rcases hsome with ⟨l, hl, htaken⟩
      rw [hdemand, if_neg fun hall => htaken (hall l hl)]

def roomy : Group where
  name := "arena"
  serverType := "game"
  memoryMin := 512
  memoryMax := 1024
  startPort := 30000
  minOnline := 0
  maxOnline := 10
  maxPlayers := 10
  newInstanceRatio := 50
  policy := .slotRatio
  properties := .empty

def crowded : List Load :=
  [⟨9, 10⟩, ⟨9, 10⟩, ⟨9, 10⟩]

theorem slotRatioDemand_is_least_crowded :
    roomy.validate = .ok () ∧ slotRatioDemand roomy crowded = 3 ∧ roomy.searchSlots crowded = 3 ∧
      (3 : ℤ) = min 10 (max 0 ⌈((50 * 30 : ℚ) - 100 * 3) / ((100 - 50) * 10)⌉) := by
  have hvalid : roomy.validate = .ok () := by
    decide +kernel
  have hleast : IsLeast {e | roomy.shortfall crowded ≤ e ∧ roomy.Enough crowded e} 3 := by
    refine ⟨⟨by decide, by decide⟩, ?_⟩
    intro extra hextra
    have henough : 50 * (30 + extra * 10) ≤ 100 * (3 + extra * 10) := hextra.right
    omega
  rcases slotRatioDemand_is_least hvalid crowded with ⟨_, hfound, _, hsearched, hcomputed, _⟩
  have hdemand : slotRatioDemand roomy crowded = 3 := hfound 3 (by decide) hleast
  have hfits : roomy.FitsWords crowded 3 := ⟨by decide, by decide, by decide⟩
  rw [hdemand] at hsearched hcomputed
  refine ⟨hvalid, hdemand, hsearched hfits, ?_⟩
  simpa [roomy, crowded, shortfall, Load.total, Load.free] using hcomputed (by decide)

end Group
end ServerFleet
