import Mathlib.Algebra.Group.Nat.Defs
import Mathlib.Data.List.TakeDrop
import ServerFleet.Text.Digits

/-!
# Reading back decimal text

Decimal text consists of digits, it ends where the digits end, and its value is the
number it was written for.  Zeros in front change none of this.
-/

namespace ServerFleet
namespace Text

/-!
# Texts of digits
-/

def AllDigits (s : List Char) : Prop :=
  ∀ c ∈ s, c.isDigit = true

def Undigited (s : List Char) : Prop :=
  ∀ c, s.head? = some c → c.isDigit = false

theorem undigited_cons {c : Char} (s : List Char) (h : c.isDigit = false) :
    Undigited (c :: s) := by
  intro d hd
  cases hd
  exact h

theorem allDigits_toDigits (n : Nat) : AllDigits (Nat.toDigits 10 n) := by
  intro c hc
  exact Nat.isDigit_of_mem_toDigits (by decide) (by decide) hc

theorem spanDigits_append {ds rest : List Char} (hds : AllDigits ds)
    (hrest : Undigited rest) :
    spanDigits (ds ++ rest) = (ds, rest) := by
  have htake : rest.takeWhile Char.isDigit = [] := by
    cases rest with
    | nil =>
        rfl
    | cons c rest =>
        simp [hrest c rfl]
  have hdrop : rest.dropWhile Char.isDigit = rest := by
    cases rest with
    | nil =>
        rfl
    | cons c rest =>
        simp [hrest c rfl]
  rw [spanDigits, List.span_eq_takeWhile_dropWhile,
    List.takeWhile_append_of_pos hds, List.dropWhile_append_of_pos hds, htake, hdrop,
    List.append_nil]

/-!
# Values of digits
-/

theorem digitValue?_of_isDigit {c : Char} (h : c.isDigit = true) :
    digitValue? c = some (c.toNat - '0'.toNat) := by
  simp [digitValue?, h]

theorem foldl_digits_eq_ofDigitChars {s : List Char} (h : AllDigits s) (init : Nat) :
    s.foldl (fun n c => n * 10 + (digitValue? c).getD 0) init = Nat.ofDigitChars 10 s init := by
  induction s generalizing init with
  | nil =>
      simp
  | cons c rest ih =>
      have hc : c.isDigit = true := h c List.mem_cons_self
      have hrest : AllDigits rest := fun d hd => h d (List.mem_cons_of_mem c hd)
      rw [List.foldl_cons, ih hrest, Nat.ofDigitChars_cons, digitValue?_of_isDigit hc,
        Option.getD_some, Nat.mul_comm init 10]

theorem digitsValue_eq_ofDigitChars {s : List Char} (h : AllDigits s) :
    digitsValue s = Nat.ofDigitChars 10 s 0 :=
  foldl_digits_eq_ofDigitChars h 0

theorem digitsValue_toDigits (n : Nat) : digitsValue (Nat.toDigits 10 n) = n := by
  rw [digitsValue_eq_ofDigitChars (allDigits_toDigits n), Nat.ofDigitChars_ten_toDigits]

/-!
# Padded numbers
-/

theorem toList_padded (width n : Nat) :
    (padded width n).toList =
      List.replicate (width - (Nat.toDigits 10 n).length) '0' ++ Nat.toDigits 10 n := by
  simp [padded]

theorem allDigits_padded (width n : Nat) : AllDigits (padded width n).toList := by
  intro c hc
  rw [toList_padded] at hc
  rcases List.mem_append.mp hc with hzero | hdigit
  · rw [List.eq_of_mem_replicate hzero]
    rfl
  · exact allDigits_toDigits n c hdigit

theorem digitsValue_padded (width n : Nat) : digitsValue (padded width n).toList = n := by
  rw [digitsValue_eq_ofDigitChars (allDigits_padded width n), toList_padded,
    Nat.ofDigitChars_append, Nat.ofDigitChars_replicate_zero, Nat.mul_zero,
    Nat.ofDigitChars_ten_toDigits]

theorem padded_ne_nil (width n : Nat) : (padded width n).toList ≠ [] := by
  rw [toList_padded]
  intro h
  exact Nat.toDigits_ne_nil (List.append_eq_nil_iff.mp h).right

theorem length_padded {width n : Nat} (hwidth : 0 < width) (hn : n < 10 ^ width) :
    (padded width n).toList.length = width := by
  have hlength : (Nat.toDigits 10 n).length ≤ width :=
    (Nat.length_toDigits_le_iff (by decide) hwidth).mpr hn
  rw [toList_padded, List.length_append, List.length_replicate]
  omega

theorem toDigits_head_ne_zero {n : Nat} (hn : 0 < n) :
    ∃ c rest, Nat.toDigits 10 n = c :: rest ∧ c ≠ '0' := by
  induction n using Nat.strongRecOn with
  | ind n ih =>
      rw [Nat.toDigits_eq_if (by decide)]
      by_cases hlt : n < 10
      · rw [if_pos hlt]
        refine ⟨n.digitChar, [], rfl, ?_⟩
        intro hzero
        have hvalue := congrArg Char.toNat hzero
        rw [Nat.toNat_digitChar_of_lt_ten hlt] at hvalue
        have : '0'.toNat = 48 := rfl
        omega
      · rw [if_neg hlt]
        rcases ih (n / 10) (Nat.div_lt_self hn (by decide)) (by omega) with
          ⟨c, rest, hdigits, hc⟩
        exact ⟨c, rest ++ [Nat.digitChar (n % 10)], by rw [hdigits]; rfl, hc⟩

end Text
end ServerFleet
