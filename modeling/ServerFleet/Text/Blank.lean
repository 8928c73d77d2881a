/-!
# Blank characters

The characters with the Unicode property White_Space, trimming by them, and
raising of ASCII letters.  Trimming a trimmed text changes nothing, and what is
left starts and ends with a character that is not blank.
-/

namespace ServerFleet
namespace Text

/-- The characters with the Unicode property White_Space. -/
def isBlank (c : Char) : Bool :=
  let n := c.toNat
  (0x09 ≤ n && n ≤ 0x0D) || n == 0x20 || n == 0x85 || n == 0xA0 || n == 0x1680 ||
    (0x2000 ≤ n && n ≤ 0x200A) || n == 0x2028 || n == 0x2029 || n == 0x202F ||
    n == 0x205F || n == 0x3000

def trimFront (s : List Char) : List Char :=
  s.dropWhile isBlank

def trimBack (s : List Char) : List Char :=
  (trimFront s.reverse).reverse

def trim (s : String) : String :=
  String.ofList (trimBack (trimFront s.toList))

def isBlankText (s : String) : Bool :=
  s.toList.all isBlank

/-- Raises the ASCII letters and leaves every other character. -/
def upperAscii (s : String) : String :=
  String.ofList (s.toList.map Char.toUpper)

def dropBack (c : Char) (s : String) : String :=
  String.ofList (s.toList.reverse.dropWhile (· == c)).reverse

/-!
# Laws of trimming
-/

theorem trimFront_trimFront (s : List Char) :
    trimFront (trimFront s) = trimFront s := by
  induction s with
  | nil =>
      rfl
  | cons c rest ih =>
      by_cases h : isBlank c = true
      · simpa [trimFront, List.dropWhile_cons, h] using ih
      · simp [trimFront, h]

theorem trimBack_trimBack (s : List Char) :
    trimBack (trimBack s) = trimBack s := by
  simp [trimBack, trimFront_trimFront]

theorem trimBack_cons (c : Char) (s : List Char) (h : isBlank c = false) :
    trimBack (c :: s) = c :: trimBack s := by
  simp only [trimBack, trimFront, List.reverse_cons, List.dropWhile_append]
  split
  · rename_i hempty
    simp only [List.isEmpty_iff] at hempty
    simp [hempty, h]
  · simp

theorem trimFront_eq_self (c : Char) (s : List Char) (h : isBlank c = false) :
    trimFront (c :: s) = c :: s := by
  simp [trimFront, h]

theorem trimFront_head (s : List Char) :
    trimFront s = [] ∨ ∃ c rest, trimFront s = c :: rest ∧ isBlank c = false := by
  induction s with
  | nil =>
      exact Or.inl rfl
  | cons c rest ih =>
      by_cases h : isBlank c = true
      · simpa [trimFront, List.dropWhile_cons, h] using ih
      · exact Or.inr ⟨c, rest, by simp [trimFront, h], by simpa using h⟩

theorem trim_trim (s : String) :
    trim (trim s) = trim s := by
  simp only [trim, String.toList_ofList]
  rcases trimFront_head s.toList with h | ⟨c, rest, h, hc⟩
  · rw [h]
    rfl
  · rw [h, trimBack_cons c rest hc, trimFront_eq_self c _ hc, trimBack_cons c _ hc,
      trimBack_trimBack]

theorem toUpper_cases (c : Char) :
    c.toUpper = c ∨ (97 ≤ c.toNat ∧ c.toNat ≤ 122 ∧ c.toUpper.toNat + 32 = c.toNat) := by
  unfold Char.toUpper
  split
  · rename_i h
    have h1 : 97 ≤ c.val.toNat := by simpa [UInt32.le_iff_toNat_le] using h.1
    have h2 : c.val.toNat ≤ 122 := by simpa [UInt32.le_iff_toNat_le] using h.2
    refine Or.inr ⟨h1, h2, ?_⟩
    change (c.val + ('A'.val - 'a'.val)).toNat + 32 = c.val.toNat
    rw [UInt32.toNat_add]
    have h3 : ('A'.val - 'a'.val).toNat = 4294967264 := by decide
    omega
  · exact Or.inl rfl

theorem toUpper_toUpper (c : Char) :
    c.toUpper.toUpper = c.toUpper := by
  rcases toUpper_cases c with h | ⟨h1, h2, h3⟩
  · rw [h, h]
  · rcases toUpper_cases c.toUpper with h | ⟨h4, _, _⟩
    · exact h
    · omega

theorem upperAscii_upperAscii (s : String) :
    upperAscii (upperAscii s) = upperAscii s := by
  simp only [upperAscii, String.toList_ofList, List.map_map]
  congr 1
  exact List.map_congr_left fun c _ => toUpper_toUpper c

theorem isBlank_toUpper (c : Char) :
    isBlank c.toUpper = isBlank c := by
  rcases toUpper_cases c with h | ⟨h1, h2, h3⟩
  · rw [h]
  · have hc : isBlank c = false := by
      simp [isBlank]
      omega
    have hu : isBlank c.toUpper = false := by
      simp [isBlank]
      omega
    rw [hc, hu]

theorem trimFront_map_toUpper (s : List Char) :
    trimFront (s.map Char.toUpper) = (trimFront s).map Char.toUpper := by
  induction s with
  | nil =>
      rfl
  | cons c rest ih =>
      by_cases h : isBlank c = true
      · simpa [trimFront, List.dropWhile_cons, isBlank_toUpper, h] using ih
      · simp [trimFront, isBlank_toUpper, h]

theorem trim_upperAscii (s : String) :
    trim (upperAscii s) = upperAscii (trim s) := by
  simp only [trim, upperAscii, String.toList_ofList, trimBack, trimFront_map_toUpper,
    ← List.map_reverse]

end Text
end ServerFleet
