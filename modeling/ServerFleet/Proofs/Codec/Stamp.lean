import Mathlib.Data.List.TakeDrop
import ServerFleet.Proofs.Codec.Decimal
import ServerFleet.Time.Stamp

/-!
# Reading back time stamps

The time stamp of an instant reads back as that instant, whatever its year and
however fine its fraction.  Every part reads back on its own, in front of a part
that starts with something else than a digit.
-/

namespace ServerFleet
namespace Time
namespace Stamp

open Text

/-!
# Numbers
-/

theorem isBlank_of_isDigit {c : Char} (h : c.isDigit = true) : isBlank c = false := by
  have hbounds : 48 ≤ c.toNat ∧ c.toNat ≤ 57 := by
    simpa [Char.isDigit, UInt32.le_iff_toNat_le] using h
  simp [isBlank]
  omega

theorem trimFront_digits {ds : List Char} (rest : List Char) (hds : AllDigits ds)
    (hne : ds ≠ []) : trimFront (ds ++ rest) = ds ++ rest := by
  cases ds with
  | nil =>
      exact absurd rfl hne
  | cons c ds =>
      exact trimFront_eq_self c _ (isBlank_of_isDigit (hds c List.mem_cons_self))

theorem number_append {ds rest : List Char} {width : Option Nat} (hds : AllDigits ds)
    (hne : ds ≠ []) (hrest : Undigited rest)
    (hwidth : ∀ n, width = some n → ds.length ≤ n) :
    number width (ds ++ rest) = .ok (digitsValue ds, rest) := by
  cases width with
  | none =>
      simp [number, spanDigits_append hds hrest, hne]
  | some n =>
      have htake : ds.take n = ds := List.take_of_length_le (hwidth n rfl)
      simp [number, spanDigits_append hds hrest, htake, hne]

theorem number_padded {width n : Nat} {rest : List Char} (hwidth : 0 < width)
    (hn : n < 10 ^ width) (hrest : Undigited rest) {limit : Nat} (hlimit : width ≤ limit) :
    number (some limit) ((padded width n).toList ++ rest) = .ok (n, rest) := by
  rw [number_append (allDigits_padded width n) (padded_ne_nil width n) hrest, digitsValue_padded]
  intro m hm
  cases hm
  rw [length_padded hwidth hn]
  exact hlimit

theorem bounded_padded {low high n : Nat} {rest : List Char} (hlow : low ≤ n) (hhigh : n ≤ high)
    (hsmall : high < 100) (hrest : Undigited rest) :
    bounded low high ((padded 2 n).toList ++ rest) = .ok (n, rest) := by
  have hn : n < 10 ^ 2 := by
    have : 10 ^ 2 = 100 := rfl
    omega
  rw [bounded, trimFront_digits rest (allDigits_padded 2 n) (padded_ne_nil 2 n),
    number_padded (by decide) hn hrest (Nat.le_refl 2)]
  simp [hlow, hhigh]

theorem mark_cons {c : Char} (rest : List Char) (hc : isBlank c = false) :
    mark c (c :: rest) = .ok rest := by
  simp [mark, trimFront_eq_self c rest hc]

theorem separator_cons (rest : List Char) : separator ('T' :: rest) = .ok rest := by
  simp [separator]

/-!
# Years
-/

/-- A text that starts with a digit is read as a year of four digits at most. -/
theorem year_of_digit {c : Char} {tail rest : List Char} {n : Nat} (hc : c.isDigit = true)
    (hread : number (some 4) (c :: tail) = .ok (n, rest)) (hn : n ≤ 9999) :
    year (c :: tail) = .ok ((n : Int), rest) := by
  have htrim : trimFront (c :: tail) = c :: tail := trimFront_eq_self c tail (isBlank_of_isDigit hc)
  have hminus : c ≠ '-' := by
    intro hsame
    subst hsame
    exact absurd hc (by decide)
  have hplus : c ≠ '+' := by
    intro hsame
    subst hsame
    exact absurd hc (by decide)
  have hrange : (-2147483648 : Int) ≤ n ∧ (n : Int) ≤ 2147483647 := by omega
  unfold year
  rw [htrim]
  split
  · rename_i hcons
    injection hcons with hhead _
    exact absurd hhead hminus
  · rename_i hcons
    injection hcons with hhead _
    exact absurd hhead hplus
  · rw [hread]
    exact if_pos hrange

theorem year_unsigned {y : Int} {rest : List Char} (hrest : Undigited rest)
    (hlow : 0 ≤ y) (hhigh : y ≤ 9999) :
    year ((padded 4 y.toNat).toList ++ rest) = .ok (y, rest) := by
  have hn : y.toNat < 10 ^ 4 := by
    have : 10 ^ 4 = 10000 := rfl
    omega
  have hread := number_padded (by decide) hn hrest (Nat.le_refl 4)
  have hvalue : ((y.toNat : Nat) : Int) = y := Int.toNat_of_nonneg hlow
  have hdigits := allDigits_padded 4 y.toNat
  cases htext : (padded 4 y.toNat).toList with
  | nil =>
      exact absurd htext (padded_ne_nil 4 y.toNat)
  | cons c ds =>
      rw [htext] at hread hdigits
      have hyear := year_of_digit (hdigits c List.mem_cons_self) hread (by omega)
      rw [hvalue] at hyear
      exact hyear

theorem number_signed (n : Nat) {rest : List Char} (hrest : Undigited rest) :
    number none ((padded 4 n).toList ++ rest) = .ok (n, rest) := by
  rw [number_append (allDigits_padded 4 n) (padded_ne_nil 4 n) hrest (by intro m hm; cases hm),
    digitsValue_padded]

theorem year_minus {n : Nat} {rest : List Char} (hn : n ≤ 2147483648) (hrest : Undigited rest) :
    year ('-' :: ((padded 4 n).toList ++ rest)) = .ok (-(n : Int), rest) := by
  have htrim : trimFront ('-' :: ((padded 4 n).toList ++ rest)) =
      '-' :: ((padded 4 n).toList ++ rest) := trimFront_eq_self '-' _ rfl
  have hrange : (-2147483648 : Int) ≤ -n ∧ -(n : Int) ≤ 2147483647 := by omega
  simp only [year, htrim, number_signed n hrest, Except.map]
  exact if_pos hrange

theorem year_plus {n : Nat} {rest : List Char} (hn : n ≤ 2147483647) (hrest : Undigited rest) :
    year ('+' :: ((padded 4 n).toList ++ rest)) = .ok ((n : Int), rest) := by
  have htrim : trimFront ('+' :: ((padded 4 n).toList ++ rest)) =
      '+' :: ((padded 4 n).toList ++ rest) := trimFront_eq_self '+' _ rfl
  have hrange : (-2147483648 : Int) ≤ n ∧ (n : Int) ≤ 2147483647 := by omega
  simp only [year, htrim, number_signed n hrest]
  exact if_pos hrange

theorem year_yearText {y : Int} (hy : firstYear ≤ y ∧ y ≤ lastYear) {rest : List Char}
    (hrest : Undigited rest) :
    year ((yearText y).toList ++ rest) = .ok (y, rest) := by
  have hfirst : firstYear = -262143 := rfl
  have hlast : lastYear = 262142 := rfl
  unfold yearText
  by_cases hplain : 0 ≤ y ∧ y ≤ 9999
  · rw [if_pos hplain]
    exact year_unsigned hrest hplain.left hplain.right
  · rw [if_neg hplain]
    have hsize : y.natAbs ≤ 2147483647 := by omega
    by_cases hneg : y < 0
    · have hvalue : -((y.natAbs : Nat) : Int) = y := by omega
      have hread := year_minus (Nat.le_succ_of_le hsize) hrest
      rw [hvalue] at hread
      rw [if_pos hneg, String.toList_append, List.append_assoc]
      exact hread
    · have hvalue : ((y.natAbs : Nat) : Int) = y := by omega
      have hread := year_plus hsize hrest
      rw [hvalue] at hread
      rw [if_neg hneg, String.toList_append, List.append_assoc]
      exact hread

/-!
# Fractions and offsets
-/

theorem dropWhile_undigited {rest : List Char} (h : Undigited rest) :
    rest.dropWhile Char.isDigit = rest := by
  cases rest with
  | nil =>
      rfl
  | cons c rest =>
      simp [h c rfl]

theorem fraction_padded {width n : Nat} {rest : List Char} (hwidth : 0 < width)
    (hlimit : width ≤ 9) (hn : n < 10 ^ width) (hrest : Undigited rest) :
    fraction ('.' :: ((padded width n).toList ++ rest)) = .ok (n * Nat.pow 10 (9 - width), rest) := by
  have hlength : ((padded width n).toList ++ rest).length - rest.length = width := by
    rw [List.length_append, length_padded hwidth hn]
    omega
  simp only [fraction, number_padded hwidth hn hrest hlimit]
  rw [hlength, dropWhile_undigited hrest]

theorem fraction_zulu : fraction ['Z'] = .ok (0, ['Z']) :=
  rfl

theorem fraction_fractionText {nanos : Nat} (h : nanos < secondNanos) :
    fraction ((fractionText nanos).toList ++ ['Z']) = .ok (nanos, ['Z']) := by
  have hsecond : secondNanos = 1000000000 := rfl
  have hzulu : Undigited ['Z'] := undigited_cons [] rfl
  unfold fractionText
  by_cases hzero : nanos = 0
  · rw [if_pos hzero, hzero]
    exact fraction_zulu
  rw [if_neg hzero]
  by_cases hmillis : nanos % 1000000 = 0
  · rw [if_pos hmillis]
    have hn : nanos / 1000000 < 10 ^ 3 := by
      have : 10 ^ 3 = 1000 := rfl
      omega
    have hvalue : nanos / 1000000 * Nat.pow 10 (9 - 3) = nanos := by
      have hpow : Nat.pow 10 (9 - 3) = 1000000 := rfl
      rw [hpow]
      omega
    simpa [hvalue] using fraction_padded (by decide) (by decide) hn hzulu
  rw [if_neg hmillis]
  by_cases hmicros : nanos % 1000 = 0
  · rw [if_pos hmicros]
    have hn : nanos / 1000 < 10 ^ 6 := by
      have : 10 ^ 6 = 1000000 := rfl
      omega
    have hvalue : nanos / 1000 * Nat.pow 10 (9 - 6) = nanos := by
      have hpow : Nat.pow 10 (9 - 6) = 1000 := rfl
      rw [hpow]
      omega
    simpa [hvalue] using fraction_padded (by decide) (by decide) hn hzulu
  · rw [if_neg hmicros]
    have hn : nanos < 10 ^ 9 := by
      have : 10 ^ 9 = 1000000000 := rfl
      omega
    have hvalue : nanos * Nat.pow 10 (9 - 9) = nanos := by
      have hpow : Nat.pow 10 (9 - 9) = 1 := rfl
      rw [hpow]
      omega
    simpa [hvalue] using fraction_padded (by decide) (by decide) hn hzulu

theorem undigited_fractionText (nanos : Nat) :
    Undigited ((fractionText nanos).toList ++ ['Z']) := by
  unfold fractionText
  by_cases hzero : nanos = 0
  · rw [if_pos hzero]
    exact undigited_cons [] rfl
  rw [if_neg hzero]
  by_cases hmillis : nanos % 1000000 = 0
  · rw [if_pos hmillis]
    simpa using undigited_cons _ rfl
  rw [if_neg hmillis]
  by_cases hmicros : nanos % 1000 = 0
  · rw [if_pos hmicros]
    simpa using undigited_cons _ rfl
  · rw [if_neg hmicros]
    simpa using undigited_cons _ rfl

theorem offset_zulu : offset (trimFront ['Z']) = .ok (0, []) :=
  rfl

/-!
# Whole stamps

A leap second is written as second 60, and only behind second 59 can there be one.
-/

theorem daysInMonth_le (year : Int) (month : Nat) : daysInMonth year month ≤ 31 := by
  unfold daysInMonth
  split
  · split <;> decide
  · split <;> decide

theorem instant_of_clock (t : Instant) :
    instant t.date.year t.date.month t.date.day (t.second / 3600) (t.second / 60 % 60)
      (t.second % 60 + (if secondNanos ≤ t.nanos then 1 else 0))
      (if secondNanos ≤ t.nanos then t.nanos - secondNanos else t.nanos) 0 = .ok t := by
  have hday : daySeconds = 86400 := rfl
  have hsecond := t.second_inside
  have hzero : daySeconds ≠ 0 := by decide
  by_cases hleap : secondNanos ≤ t.nanos
  · have hlast : t.second % 60 = 59 := by
      rcases t.nanos_inside with hsmall | hlarge
      · omega
      · exact hlarge.right
    have hinDay : t.second / 3600 * 3600 + t.second / 60 % 60 * 60 + 59 = t.second := by omega
    have hnanos : t.nanos - secondNanos + secondNanos = t.nanos := by omega
    simp [instant, Date.of?_self, hleap, hlast, hinDay, hnanos, hzero,
      shiftBack?_zero t.date t.second hsecond, Instant.of?_self]
  · have hsixty : t.second % 60 ≠ 60 := by omega
    have hinDay : t.second / 3600 * 3600 + t.second / 60 % 60 * 60 + t.second % 60 =
        t.second := by
      omega
    simp [instant, Date.of?_self, hleap, hsixty, hinDay, hzero,
      shiftBack?_zero t.date t.second hsecond, Instant.of?_self]

theorem toList_text (t : Instant) :
    t.text.toList =
      (yearText t.date.year).toList ++ '-' :: ((padded 2 t.date.month).toList ++
        '-' :: ((padded 2 t.date.day).toList ++ 'T' :: ((padded 2 (t.second / 3600)).toList ++
          ':' :: ((padded 2 (t.second / 60 % 60)).toList ++ ':' ::
            ((padded 2 (t.second % 60 + (if secondNanos ≤ t.nanos then 1 else 0))).toList ++
              ((fractionText
                (if secondNanos ≤ t.nanos then t.nanos - secondNanos else t.nanos)).toList ++
                  ['Z'])))))) := by
  simp [Instant.text, Instant.plainText]

theorem read_text (t : Instant) : read t.text.toList = .ok t := by
  have hday : daySeconds = 86400 := rfl
  have hsecond := t.second_inside
  have hmonth := t.date.month_inside
  have hdays := t.date.day_inside
  have hmost := daysInMonth_le t.date.year t.date.month
  have hnanos : (if secondNanos ≤ t.nanos then t.nanos - secondNanos else t.nanos) <
      secondNanos := by
    have hsize : secondNanos = 1000000000 := rfl
    have hinside := t.nanos_inside
    split <;> omega
  have hlast : t.second % 60 + (if secondNanos ≤ t.nanos then 1 else 0) ≤ 60 := by
    split <;> omega
  have hdash : ∀ s, Undigited ('-' :: s) := fun s => undigited_cons s rfl
  have hcolon : ∀ s, Undigited (':' :: s) := fun s => undigited_cons s rfl
  have hhour : t.second / 3600 ≤ 23 := by omega
  have hminute : t.second / 60 % 60 ≤ 59 := by omega
  rw [toList_text]
  simp only [read, bind, Except.bind,
    year_yearText t.date.year_inside (hdash _),
    mark_cons _ (c := '-') rfl, mark_cons _ (c := ':') rfl,
    bounded_padded hmonth.left hmonth.right (by decide) (hdash _),
    bounded_padded hdays.left (Nat.le_trans hdays.right hmost) (by decide)
      (undigited_cons (c := 'T') _ rfl),
    separator_cons,
    bounded_padded (Nat.zero_le _) hhour (by decide) (hcolon _),
    bounded_padded (Nat.zero_le _) hminute (by decide) (hcolon _),
    bounded_padded (Nat.zero_le _) hlast (by decide) (undigited_fractionText _),
    fraction_fractionText hnanos, offset_zulu]
  exact instant_of_clock t

end Stamp

theorem Instant.ofText_text (t : Instant) : Instant.ofText t.text = .ok t :=
  Stamp.read_text t

end Time
end ServerFleet
