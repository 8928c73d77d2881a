import Mathlib.Tactic.Ring
import ServerFleet.Id.Basic

/-!
# Reading back identifiers

Twenty-six digits of five bits hold every number of 128 bits.  An identifier is cut
from its prefix at the last underscore, and no digit is an underscore.
-/

namespace ServerFleet
namespace Base32

/-!
# Digits
-/

theorem value?_getD {m : Nat} (h : m < 32) : value? (alphabet.getD m '0') = some m := by
  have hall : ∀ m < 32, value? (alphabet.getD m '0') = some m := by decide
  exact hall m h

theorem value?_digit (n : Nat) : value? (digit n) = some (n % 32) :=
  value?_getD (Nat.mod_lt n (by decide))

theorem digit_mem_alphabet (n : Nat) : digit n ∈ alphabet := by
  have hall : ∀ m < 32, alphabet.getD m '0' ∈ alphabet := by decide
  exact hall (n % 32) (Nat.mod_lt n (by decide))

theorem digits_subset_alphabet (count n : Nat) : ∀ c ∈ digits count n, c ∈ alphabet := by
  induction count generalizing n with
  | zero =>
      intro c hc
      cases hc
  | succ count ih =>
      intro c hc
      rcases List.mem_append.mp hc with hfront | hlast
      · exact ih (n / 32) c hfront
      · rw [List.mem_singleton.mp hlast]
        exact digit_mem_alphabet n

theorem length_digits (count n : Nat) : (digits count n).length = count := by
  induction count generalizing n with
  | zero =>
      rfl
  | succ count ih =>
      simp [digits, ih]

/-!
# Reading digits
-/

theorem fold?_append (n : Nat) (s t : List Char) :
    fold? n (s ++ t) = (fold? n s).bind fun m => fold? m t := by
  induction s generalizing n with
  | nil =>
      rfl
  | cons c rest ih =>
      simp only [List.cons_append, fold?]
      cases value? c with
      | none =>
          rfl
      | some d =>
          exact ih (n * 32 + d)

theorem fold?_digits (count start n : Nat) :
    fold? start (digits count n) = some (start * 32 ^ count + n % 32 ^ count) := by
  induction count generalizing n with
  | zero =>
      simp [digits, fold?, Nat.mod_one]
  | succ count ih =>
      have hmod : n % 32 ^ (count + 1) = n % 32 + 32 * (n / 32 % 32 ^ count) := by
        rw [Nat.pow_succ', Nat.mod_mul]
      rw [digits, fold?_append, ih]
      simp only [Option.bind_some, fold?, value?_digit]
      rw [hmod, Nat.pow_succ]
      congr 1
      ring

theorem utf8Size_of_mem_alphabet {c : Char} (h : c ∈ alphabet) : c.utf8Size = 1 := by
  have hall : alphabet.all (fun c => c.utf8Size == 1) = true := by decide
  exact beq_iff_eq.mp (List.all_eq_true.mp hall c h)

theorem utf8ByteSize_ofList {s : List Char} (h : ∀ c ∈ s, c.utf8Size = 1) :
    (String.ofList s).utf8ByteSize = s.length := by
  induction s with
  | nil =>
      rfl
  | cons c rest ih =>
      have hrest := ih fun d hd => h d (List.mem_cons_of_mem c hd)
      rw [String.ofList_cons, String.utf8ByteSize_append, String.utf8ByteSize_singleton, hrest,
        h c List.mem_cons_self, List.length_cons]
      omega

theorem decode_encode {n : Nat} (h : n < capacity) : decode (encode n) = .ok n := by
  have hsize : (encode n).utf8ByteSize = width := by
    rw [encode, utf8ByteSize_ofList fun c hc => utf8Size_of_mem_alphabet (digits_subset_alphabet width n c hc),
      length_digits]
  have hpow : capacity < 32 ^ width := by decide
  have hfold : fold? 0 (encode n).toList = some n := by
    rw [encode, String.toList_ofList, fold?_digits, Nat.zero_mul, Nat.zero_add,
      Nat.mod_eq_of_lt (Nat.lt_trans h hpow)]
  simp [decode, hsize, hfold, Nat.mod_eq_of_lt h]

end Base32

/-!
# Cutting at the separator
-/

theorem Text.splitLast?_append {separator : Char} {back : List Char} (front : List Char)
    (h : separator ∉ back) :
    Text.splitLast? separator (front ++ separator :: back) = some (front, back) := by
  have hback : ∀ c ∈ back.reverse, (c != separator) = true := by
    intro c hc
    have hmem : c ∈ back := List.mem_reverse.mp hc
    simp only [bne_iff_ne, ne_eq]
    intro hsame
    subst hsame
    exact h hmem
  have hreverse : (front ++ separator :: back).reverse =
      back.reverse ++ separator :: front.reverse := by
    simp
  have htake : (back.reverse ++ separator :: front.reverse).takeWhile (· != separator) =
      back.reverse := by
    rw [List.takeWhile_append_of_pos hback]
    simp
  simp [Text.splitLast?, hreverse, htake]

namespace Id

variable {kind : IdKind}

theorem text_ne_empty (id : Id kind) : id.text.isEmpty = false := by
  cases kind <;> simp [text, IdKind.tag, String.isEmpty]

theorem ofNat_value (id : Id kind) : (ofNat id.value : Id kind) = id := by
  cases id with
  | mk value value_lt =>
      simp [ofNat, Nat.mod_eq_of_lt value_lt]

theorem value_inj {a b : Id kind} : a.value = b.value ↔ a = b := by
  cases a
  cases b
  simp

/-- The prefix ends at the last underscore: no digit is one. -/
theorem splitLast?_text (id : Id kind) : Text.splitLast? '_' id.text.toList =
    some (kind.tag.toList, (Base32.encode id.value).toList) := by
  have hdigits : '_' ∉ (Base32.encode id.value).toList := by
    intro h
    rw [Base32.encode, String.toList_ofList] at h
    exact absurd (Base32.digits_subset_alphabet _ _ _ h) (by decide)
  have hlist : id.text.toList = kind.tag.toList ++ '_' :: (Base32.encode id.value).toList := by
    simp [text]
  rw [hlist, Text.splitLast?_append kind.tag.toList hdigits]

theorem ofText_text (id : Id kind) : ofText id.text = .ok id := by
  simp only [ofText, text_ne_empty, splitLast?_text, String.ofList_toList,
    Base32.decode_encode id.value_lt, ofNat_value]
  simp

theorem text_inj {a b : Id kind} : a.text = b.text ↔ a = b := by
  constructor
  · intro h
    have hread : (ofText a.text : Except IdError (Id kind)) = ofText b.text := by
      rw [h]
    rw [ofText_text, ofText_text] at hread
    exact Except.ok.inj hread
  · intro h
    rw [h]

end Id
end ServerFleet
