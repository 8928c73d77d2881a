import Mathlib.Data.List.Dedup
import Mathlib.Data.List.Sort
import ServerFleet.Proofs.Codec.Record

/-!
# The order of identifiers

Identifiers are ordered by their values, and their texts by their bytes.  The two orders
are one: texts of a kind differ in the digits only, these stand from the most significant
one to the least, and a greater digit has a greater byte.
-/

namespace ServerFleet

/-!
# Bytes
-/

namespace Text

def bytes (s : String) : List UInt8 :=
  s.toByteArray.data.toList

theorem bytes_append (s t : String) : bytes (s ++ t) = bytes s ++ bytes t := by
  rw [bytes, String.toByteArray_append, ByteArray.data_append, Array.toList_append, bytes, bytes]

theorem bytes_ofList (cs : List Char) : bytes (String.ofList cs) = cs.flatMap String.utf8EncodeChar := by
  rw [bytes, String.toByteArray_ofList, List.utf8Encode, List.data_toByteArray]

theorem bytes_inj {s t : String} : bytes s = bytes t ↔ s = t := by
  constructor
  · intro h
    exact String.toByteArray_inj.mp (ByteArray.ext (Array.toList_inj.mp h))
  · exact congrArg bytes

/-!
# Sorted texts
-/

def sorted (texts : List String) : List String :=
  (texts.mergeSort fun a b => decide (bytes a ≤ bytes b)).dedup

variable {texts : List String}

theorem mem_sorted {s : String} : s ∈ sorted texts ↔ s ∈ texts := by
  rw [sorted, List.mem_dedup, List.mem_mergeSort]

theorem nodup_sorted : (sorted texts).Nodup :=
  List.nodup_dedup _

theorem ascending_sorted : (sorted texts).Pairwise fun a b => bytes a ≤ bytes b := by
  have hsorted : (texts.mergeSort fun a b => decide (bytes a ≤ bytes b)).Pairwise
      fun a b => decide (bytes a ≤ bytes b) = true := by
    apply List.pairwise_mergeSort
    · intro a b c hab hbc
      exact decide_eq_true (List.le_trans (of_decide_eq_true hab) (of_decide_eq_true hbc))
    · intro a b
      simpa using List.le_total (bytes a) (bytes b)
  exact (hsorted.imp of_decide_eq_true).sublist (List.dedup_sublist _)

/-- There is one ascending list without doubles that holds given texts. -/
theorem eq_sorted {found : List String} (hascending : found.Pairwise fun a b => bytes a < bytes b)
    (hmem : ∀ s, s ∈ found ↔ s ∈ texts) : found = sorted texts := by
  have hnodup : found.Nodup := by
    refine hascending.imp ?_
    intro a b hless hsame
    rw [hsame] at hless
    exact List.lt_irrefl _ hless
  have hperm : found.Perm (sorted texts) := by
    rw [List.perm_ext_iff_of_nodup hnodup nodup_sorted]
    intro s
    rw [hmem, mem_sorted]
  refine List.Perm.eq_of_pairwise ?_ (hascending.imp fun hless => List.le_of_lt hless) ascending_sorted hperm
  intro a b _ _ hab hba
  exact bytes_inj.mp (List.le_antisymm hab hba)

end Text

/-!
# Digits
-/

namespace Base32

theorem byte_digit_lt_iff (m n : Nat) :
    (digit m).val.toUInt8 < (digit n).val.toUInt8 ↔ m % 32 < n % 32 := by
  have hall : ∀ i < 32, ∀ j < 32,
      (alphabet.getD i '0').val.toUInt8 < (alphabet.getD j '0').val.toUInt8 ↔ i < j := by
    decide +kernel
  exact hall (m % 32) (Nat.mod_lt m (by decide)) (n % 32) (Nat.mod_lt n (by decide))

theorem byte_digit_inj (m n : Nat) :
    (digit m).val.toUInt8 = (digit n).val.toUInt8 ↔ m % 32 = n % 32 := by
  constructor
  · intro hsame
    have hm := byte_digit_lt_iff m n
    have hn := byte_digit_lt_iff n m
    rw [hsame] at hm hn
    have hirrefl := UInt8.lt_irrefl (digit n).val.toUInt8
    have hnm := mt hm.mpr hirrefl
    have hmn := mt hn.mpr hirrefl
    omega
  · intro hsame
    rw [digit, hsame, digit]

theorem digits_eq_cons (count n : Nat) :
    digits (count + 1) n = digit (n / 32 ^ count) :: digits count n := by
  induction count generalizing n with
  | zero =>
      simp [digits]
  | succ count ih =>
      rw [digits, ih, digits, Nat.div_div_eq_div_mul, Nat.pow_succ', List.cons_append]

theorem bytes_digits (count n : Nat) : Text.bytes (String.ofList (digits count n)) =
    (digits count n).map fun c => c.val.toUInt8 := by
  rw [Text.bytes_ofList, ← List.flatMap_singleton' (List.map _ _), List.flatMap_map]
  apply List.flatMap_congr
  intro c hc
  exact String.utf8EncodeChar_eq_singleton (utf8Size_of_mem_alphabet (digits_subset_alphabet count n c hc))

theorem add_mul_lt_iff {base a b r s : Nat} (hr : r < base) (hs : s < base) :
    r + base * a < s + base * b ↔ a < b ∨ a = b ∧ r < s := by
  rcases Nat.lt_trichotomy a b with hless | rfl | hless
  · have hstep : base * (a + 1) ≤ base * b := Nat.mul_le_mul_left base hless
    rw [Nat.mul_succ] at hstep
    omega
  · omega
  · have hstep : base * (b + 1) ≤ base * a := Nat.mul_le_mul_left base hless
    rw [Nat.mul_succ] at hstep
    omega

theorem bytes_digits_lt_iff (count m n : Nat) :
    Text.bytes (String.ofList (digits count m)) < Text.bytes (String.ofList (digits count n)) ↔
      m % 32 ^ count < n % 32 ^ count := by
  rw [bytes_digits, bytes_digits]
  induction count with
  | zero =>
      simp [digits, Nat.mod_one]
  | succ count ih =>
      have hbase : 0 < 32 ^ count := Nat.pow_pos (by decide)
      rw [digits_eq_cons, digits_eq_cons, List.map_cons, List.map_cons, List.cons_lt_cons_iff, ih,
        byte_digit_lt_iff, byte_digit_inj, Nat.pow_succ, Nat.mod_mul, Nat.mod_mul,
        add_mul_lt_iff (Nat.mod_lt m hbase) (Nat.mod_lt n hbase)]

end Base32

namespace Id

variable {kind : IdKind}

/-!
# Order
-/

theorem append_lt_append_iff (front : List UInt8) {s t : List UInt8} :
    front ++ s < front ++ t ↔ s < t := by
  induction front with
  | nil =>
      rfl
  | cons b rest ih =>
      rw [List.cons_append, List.cons_append, List.cons_lt_cons_self, ih]

theorem bytes_lt_iff (a b : Id kind) : Text.bytes a.text < Text.bytes b.text ↔ a.value < b.value := by
  have hpow : Base32.capacity < 32 ^ Base32.width := by decide
  have ha := Nat.lt_trans a.value_lt hpow
  have hb := Nat.lt_trans b.value_lt hpow
  rw [text, text, Text.bytes_append _ (Base32.encode a.value), Text.bytes_append _ (Base32.encode b.value),
    append_lt_append_iff, Base32.encode, Base32.encode, Base32.bytes_digits_lt_iff, Nat.mod_eq_of_lt ha,
    Nat.mod_eq_of_lt hb]

/-!
# Sorted identifiers
-/

theorem mem_insertSorted {id x : Id kind} {ids : List (Id kind)} :
    x ∈ insertSorted id ids ↔ x = id ∨ x ∈ ids := by
  induction ids with
  | nil =>
      simp [insertSorted]
  | cons y rest ih =>
      rw [insertSorted]
      split
      next =>
        exact List.mem_cons
      next =>
        split
        next hsame =>
          simp [hsame]
        next =>
          rw [List.mem_cons, ih, List.mem_cons]
          exact or_left_comm

theorem ascending_insertSorted {id : Id kind} {ids : List (Id kind)}
    (h : ids.Pairwise fun a b => a.value < b.value) :
    (insertSorted id ids).Pairwise fun a b => a.value < b.value := by
  induction ids with
  | nil =>
      exact List.pairwise_singleton _ _
  | cons y rest ih =>
      rcases List.pairwise_cons.mp h with ⟨hfirst, hrest⟩
      rw [insertSorted]
      split
      next hless =>
        refine List.pairwise_cons.mpr ⟨?_, h⟩
        intro x hx
        rcases List.mem_cons.mp hx with rfl | hx
        · exact hless
        · exact Nat.lt_trans hless (hfirst x hx)
      next hnot =>
        split
        next =>
          exact h
        next hne =>
          refine List.pairwise_cons.mpr ⟨?_, ih hrest⟩
          intro x hx
          rcases mem_insertSorted.mp hx with rfl | hx
          · have hvalues : y.value ≠ x.value := by
              intro hsame
              cases x
              cases y
              cases hsame
              exact hne rfl
            omega
          · exact hfirst x hx

theorem mem_sorted {id : Id kind} {ids : List (Id kind)} : id ∈ sorted ids ↔ id ∈ ids := by
  induction ids with
  | nil =>
      rfl
  | cons x rest ih =>
      rw [sorted, List.foldr_cons, ← sorted, mem_insertSorted, ih, List.mem_cons]

theorem ascending_sorted (ids : List (Id kind)) : (sorted ids).Pairwise fun a b => a.value < b.value := by
  induction ids with
  | nil =>
      exact List.Pairwise.nil
  | cons x rest ih =>
      exact ascending_insertSorted ih

theorem map_text_sorted (ids : List (Id kind)) : (sorted ids).map text = Text.sorted (ids.map text) := by
  apply Text.eq_sorted
  · rw [List.pairwise_map]
    exact (ascending_sorted ids).imp fun hless => (bytes_lt_iff _ _).mpr hless
  · intro s
    simp only [List.mem_map, mem_sorted]

/-!
# Other kinds
-/

theorem tag_inj {kind other : IdKind} : kind.tag = other.tag ↔ kind = other := by
  cases kind <;> cases other <;> decide

theorem ofText_text_of_ne {other : IdKind} (id : Id kind) (hne : other ≠ kind) :
    (ofText id.text : Except IdError (Id other)) = .error (.wrongPrefix other.tag kind.tag) := by
  have htag : kind.tag ≠ other.tag := fun hsame => hne (tag_inj.mp hsame).symm
  simp only [ofText, text_ne_empty, splitLast?_text, String.ofList_toList]
  rw [if_neg (by simp), if_pos htag]

/-- Identifiers of a kind read back from their texts, also through JSON, and no other kind accepts them;
they are ordered and told apart as their texts are byte by byte, and sorting them without doubles sorts
their texts without doubles. -/
theorem identifiers_sort_like_texts (kind : IdKind) :
    (∀ id : Id kind, ofText id.text = .ok id ∧ Json.decodeText decode id.toJson.text = .ok id ∧
      ∀ other, other ≠ kind →
        (ofText id.text : Except IdError (Id other)) = .error (.wrongPrefix other.tag kind.tag)) ∧
    (∀ a b : Id kind, (a.value < b.value ↔ Text.bytes a.text < Text.bytes b.text) ∧
      (a.value = b.value ↔ a.text = b.text)) ∧
    ∀ ids : List (Id kind), (sorted ids).map text = Text.sorted (ids.map text) := by
  refine ⟨?_, ?_, map_text_sorted⟩
  · intro id
    exact ⟨ofText_text id, decodeText_toJson id, fun other => ofText_text_of_ne id⟩
  · intro a b
    exact ⟨(bytes_lt_iff a b).symm, value_inj.trans text_inj.symm⟩

end Id
end ServerFleet
