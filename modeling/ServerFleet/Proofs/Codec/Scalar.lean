import ServerFleet.Json.Reader
import ServerFleet.Json.Writer
import ServerFleet.Proofs.Codec.Decimal

/-!
# Reading back strings and numbers

A quoted string reads back whatever its characters are, and whatever stands behind
its closing quote.  A natural number reads back as long as it fits a word, in front
of a character that cannot go on with it.
-/

namespace ServerFleet
namespace Json

open Text

namespace Quoted

/-!
# Escapes
-/

def pieceOf (c : Char) : Piece :=
  if c.toNat < 32 ∧ c ≠ '\n' ∧ c ≠ '\r' ∧ c ≠ '\t' ∧ c.toNat ≠ 8 ∧ c.toNat ≠ 12 then .unit c.toNat
  else .char c

theorem hexValue?_hexDigit {n : Nat} (h : n < 16) : hexValue? (hexDigit n) = some n := by
  have hall : ∀ n < 16, hexValue? (hexDigit n) = some n := by decide
  exact hall n h

theorem unit?_hexDigits {n : Nat} (h : n < 32) :
    unit? '0' '0' (hexDigit (n / 16)) (hexDigit (n % 16)) = some n := by
  have hhigh := hexValue?_hexDigit (n := n / 16) (by omega)
  have hlow := hexValue?_hexDigit (n := n % 16) (by omega)
  have hzero : hexValue? '0' = some 0 := by decide
  have hvalue : ((0 * 16 + 0) * 16 + n / 16) * 16 + n % 16 = n := by omega
  simp only [unit?, hzero, hhigh, hlow]
  rw [hvalue]

theorem eq_ofNat_of_toNat {c : Char} {n : Nat} (h : c.toNat = n) : c = Char.ofNat n := by
  rw [← h, Char.ofNat_toNat]

theorem body_plain {c : Char} (tail : List Char) (hquote : c ≠ '"') (hslash : c ≠ '\\')
    (hcontrol : ¬ c.toNat < 32) :
    body (c :: tail) = (body tail).cons (.char c) := by
  rw [body.eq_def]
  split
  · rename_i heq
    cases heq
  · rename_i heq
    injection heq with hhead _
    exact absurd hhead hquote
  · rename_i heq
    injection heq with hhead _
    exact absurd hhead hslash
  · rename_i heq
    injection heq with hhead _
    exact absurd hhead hslash
  · rename_i heq
    injection heq with hhead _
    exact absurd hhead hslash
  · rename_i heq
    injection heq with hhead _
    exact absurd hhead hslash
  · rename_i heq
    injection heq with hhead htail
    subst hhead
    subst htail
    rw [if_neg hcontrol]

theorem body_charText (c : Char) (tail : List Char) :
    body (charText c ++ tail) = (body tail).cons (pieceOf c) := by
  unfold charText
  split
  · rename_i h
    subst h
    simp [body, escaped?, pieceOf]
  split
  · rename_i h
    subst h
    simp [body, escaped?, pieceOf]
  split
  · rename_i h
    subst h
    simp [body, escaped?, pieceOf]
  split
  · rename_i h
    subst h
    simp [body, escaped?, pieceOf]
  split
  · rename_i h
    subst h
    simp [body, escaped?, pieceOf]
  split
  · rename_i h
    simp [body, escaped?, pieceOf, eq_ofNat_of_toNat h]
  split
  · rename_i h
    simp [body, escaped?, pieceOf, eq_ofNat_of_toNat h]
  split
  · rename_i hnewline hreturn htab hback hfeed hcontrol
    simp [body, unit?_hexDigits hcontrol, pieceOf, hcontrol, hnewline, hreturn, htab, hback,
      hfeed]
  · rename_i hquote hslash _ _ _ _ _ hcontrol
    have hpiece : pieceOf c = .char c := by
      simp [pieceOf, hcontrol]
    rw [hpiece]
    exact body_plain tail hquote hslash hcontrol

/-!
# Whole strings
-/

theorem body_text (s rest : List Char) :
    body (s.flatMap charText ++ '"' :: rest) = ⟨s.map pieceOf, .ok rest⟩ := by
  induction s with
  | nil =>
      simp [body]
  | cons c tail ih =>
      rw [List.flatMap_cons, List.append_assoc, body_charText, ih]
      rfl

theorem chars_pieceOf (s : List Char) : chars none (s.map pieceOf) = .ok s := by
  induction s with
  | nil =>
      rfl
  | cons c tail ih =>
      rw [List.map_cons]
      by_cases hunit : c.toNat < 32 ∧ c ≠ '\n' ∧ c ≠ '\r' ∧ c ≠ '\t' ∧ c.toNat ≠ 8 ∧ c.toNat ≠ 12
      · have hplane : c.toNat < 0xD800 ∨ 0xDFFF < c.toNat := Or.inl (by omega)
        rw [pieceOf, if_pos hunit, chars.eq_def]
        simp only [hplane, if_true, ih, Char.ofNat_toNat]
        rfl
      · rw [pieceOf, if_neg hunit, chars, ih]
        rfl

theorem scan_text (s : String) (rest : List Char) :
    scan (s.toList.flatMap charText ++ '"' :: rest) = (Scan.ofValue s, rest) := by
  simp [scan, body_text, chars_pieceOf, Except.map, Scan.ofValue]

end Quoted

namespace Numeral

/-!
# Natural numbers
-/

def Ended (rest : List Char) : Prop :=
  ∀ c, rest.head? = some c → c.isDigit = false ∧ c ≠ '.' ∧ c ≠ 'e' ∧ c ≠ 'E'

theorem Ended.undigited {rest : List Char} (h : Ended rest) : Undigited rest := by
  intro c hc
  exact (h c hc).left

theorem le_foldl_digits (s : List Char) (n : Nat) :
    n ≤ s.foldl (fun n c => n * 10 + (digitValue? c).getD 0) n := by
  induction s generalizing n with
  | nil =>
      exact Nat.le_refl n
  | cons c rest ih =>
      have hstep := ih (n * 10 + (digitValue? c).getD 0)
      rw [List.foldl_cons]
      omega

/-- Digits are gathered to the end if their value fits. -/
theorem gather_eq (s : List Char) (n : Nat)
    (h : s.foldl (fun n c => n * 10 + (digitValue? c).getD 0) n < wordBound) :
    gather n s = (s.foldl (fun n c => n * 10 + (digitValue? c).getD 0) n, []) := by
  induction s generalizing n with
  | nil =>
      rfl
  | cons c rest ih =>
      rw [List.foldl_cons] at h ⊢
      have hnext := Nat.lt_of_le_of_lt (le_foldl_digits rest _) h
      rw [gather]
      simp only [hnext, if_true]
      exact ih _ h

theorem gather_toDigits {n : Nat} (h : n < wordBound) : gather 0 (Nat.toDigits 10 n) = (n, []) := by
  have hvalue : (Nat.toDigits 10 n).foldl (fun n c => n * 10 + (digitValue? c).getD 0) 0 = n :=
    digitsValue_toDigits n
  rw [gather_eq _ 0 (by rw [hvalue]; exact h), hvalue]

theorem whole_toDigits (n : Nat) {rest : List Char} (hrest : Ended rest) :
    whole (α := Numeral) (Nat.toDigits 10 n ++ rest) = .ok (Nat.toDigits 10 n, rest) := by
  simp only [whole, spanDigits_append (allDigits_toDigits n) hrest.undigited]
  rcases Nat.eq_zero_or_pos n with hzero | hpos
  · subst hzero
    simp
  · rcases toDigits_head_ne_zero hpos with ⟨c, tail, hdigits, hc⟩
    rw [hdigits]
    split
    · rename_i heq
      cases heq
    · rename_i heq
      injection heq with hhead _
      exact absurd hhead hc
    · rfl

theorem fraction_ended {rest : List Char} (h : Ended rest) :
    fraction (α := Numeral) rest = .ok (none, rest) := by
  unfold fraction
  split
  · exact absurd rfl (h '.' rfl).right.left
  · rfl

theorem exponent_ended {rest : List Char} (h : Ended rest) :
    exponent (α := Numeral) rest = .ok (none, rest) := by
  unfold exponent
  split
  · rfl
  · rename_i c tail
    have hc := h c rfl
    rw [if_neg]
    intro hcase
    rcases hcase with he | he
    · exact hc.right.right.left he
    · exact hc.right.right.right he

theorem parts_toDigits (n : Nat) {rest : List Char} (hrest : Ended rest) :
    parts (α := Numeral) (Nat.toDigits 10 n ++ rest) =
      .ok (⟨false, Nat.toDigits 10 n, none, none⟩, rest) := by
  have hminus : ∀ tail, Nat.toDigits 10 n ++ rest ≠ '-' :: tail := by
    intro tail h
    cases hdigits : Nat.toDigits 10 n with
    | nil =>
        exact Nat.toDigits_ne_nil hdigits
    | cons c ds =>
        rw [hdigits] at h
        injection h with hhead _
        have hc := allDigits_toDigits n c (by rw [hdigits]; exact List.mem_cons_self)
        rw [hhead] at hc
        exact absurd hc (by decide)
  unfold parts
  split
  · rename_i heq
    split at heq
    · rename_i tail htail
      exact absurd htail (hminus tail)
    · cases heq
      simp [whole_toDigits n hrest, fraction_ended hrest, exponent_ended hrest, bind, Except.bind,
        pure, Except.pure]

theorem scan_toDigits {n : Nat} (hn : n < wordBound) {rest : List Char} (hrest : Ended rest) :
    scan (Nat.toDigits 10 n ++ rest) = (Scan.ofValue (.natural n), rest) := by
  simp [scan, parts_toDigits n hrest, Parts.value, gather_toDigits hn, Scan.ofValue]

end Numeral
end Json
end ServerFleet
