import Mathlib.Data.List.Induction
import Mathlib.Data.List.TakeWhile
import ServerFleet.Proofs.Codec.Identifier
import ServerFleet.Text.Blank

/-!
# Spellings of identifiers

Digits are read in either case, and of the 130 bits that they hold only the lowest 128
count.  So an identifier is read from more texts than the one that it is written as: in
any case, and with any of four numbers above it.  There are no others.
-/

namespace ServerFleet

/-!
# Cutting at the separator
-/

namespace Text

variable {separator : Char} {s front back : List Char}

theorem splitLast?_eq_none (h : separator ∉ s) : splitLast? separator s = none := by
  have hall : ∀ c ∈ s.reverse, (c != separator) = true := by
    intro c hc
    rw [bne_iff_ne]
    intro hsame
    exact h (hsame ▸ List.mem_reverse.mp hc)
  rw [splitLast?, List.takeWhile_eq_self_iff.mpr hall, List.drop_length]

theorem eq_append_of_splitLast? (h : splitLast? separator s = some (front, back)) :
    s = front ++ separator :: back := by
  by_cases hmem : separator ∈ s
  · rcases List.eq_append_cons_of_mem (List.mem_reverse.mpr hmem) with ⟨after, before, hsplit, hafter⟩
    have hs : s = before.reverse ++ separator :: after.reverse := by
      have hreversed := congrArg List.reverse hsplit
      simpa using hreversed
    rw [hs, splitLast?_append before.reverse (mt List.mem_reverse.mp hafter)] at h
    cases h
    exact hs
  · rw [splitLast?_eq_none hmem] at h
    cases h

end Text

/-!
# Digits in either case
-/

namespace Base32

variable {body : List Char} {n : Nat}

theorem value?_eq_some_iff {c : Char} {d : Nat} : value? c = some d ↔ d < 32 ∧ c.toUpper = digit d := by
  constructor
  · intro h
    rcases List.idxOf?_eq_some_iff.mp h with ⟨hlt, hfound, _⟩
    have hd : d < 32 := hlt
    refine ⟨hd, ?_⟩
    rw [digit, Nat.mod_eq_of_lt hd, List.getD_eq_getElem?_getD, List.getElem?_eq_getElem hlt]
    exact hfound.symm
  · intro h
    have hvalue := value?_digit d
    rw [← h.right, Nat.mod_eq_of_lt h.left] at hvalue
    rw [value?, ← Text.toUpper_toUpper]
    exact hvalue

theorem digits_snoc (count n d : Nat) (hd : d < 32) :
    digits (count + 1) (n * 32 + d) = digits count n ++ [digit d] := by
  have hquotient : (n * 32 + d) / 32 = n := by omega
  have hrest : (n * 32 + d) % 32 = d % 32 := by omega
  rw [digits, hquotient, digit, hrest, ← digit]

theorem fold?_eq_some_iff : fold? 0 body = some n ↔
    n < 32 ^ body.length ∧ body.map Char.toUpper = digits body.length n := by
  induction body using List.reverseRecOn generalizing n with
  | nil =>
      simp [fold?, digits, eq_comm]
  | append_singleton body c ih =>
      rw [fold?_append, Option.bind_eq_some_iff, List.length_append, List.length_singleton, List.map_append]
      constructor
      · rintro ⟨m, hm, hlast⟩
        rcases ih.mp hm with ⟨hlt, hbody⟩
        rw [fold?] at hlast
        split at hlast
        next d hd =>
          cases hlast
          rcases value?_eq_some_iff.mp hd with ⟨hdigit, hupper⟩
          refine ⟨by rw [Nat.pow_succ]; omega, ?_⟩
          rw [digits_snoc _ _ _ hdigit, ← hbody, ← hupper]
          rfl
        next =>
          cases hlast
      · rintro ⟨hlt, hupper⟩
        rw [digits] at hupper
        rcases List.append_inj' hupper rfl with ⟨hbody, hlast⟩
        have hquotient : n / 32 < 32 ^ body.length := by
          rw [Nat.pow_succ] at hlt
          omega
        have hvalue : value? c = some (n % 32) := by
          refine value?_eq_some_iff.mpr ⟨Nat.mod_lt n (by decide), ?_⟩
          rw [digit, Nat.mod_mod, ← digit]
          exact List.singleton_inj.mp hlast
        refine ⟨n / 32, ih.mpr ⟨hquotient, hbody⟩, ?_⟩
        simp only [fold?, hvalue]
        congr 1
        omega

theorem utf8Size_of_toUpper {c : Char} (h : c.toUpper ∈ alphabet) : c.utf8Size = 1 := by
  rcases Text.toUpper_cases c with hsame | ⟨_, hle, _⟩
  · exact utf8Size_of_mem_alphabet (hsame ▸ h)
  · rw [Char.utf8Size_eq_one_iff, UInt32.le_iff_toNat_le]
    exact Nat.le_trans hle (by decide)

theorem length_of_digits {count : Nat} (h : body.map Char.toUpper = digits count n) :
    body.length = count := by
  rw [← List.length_map Char.toUpper, h, length_digits]

theorem utf8ByteSize_of_digits {count : Nat} (h : body.map Char.toUpper = digits count n) :
    (String.ofList body).utf8ByteSize = count := by
  rw [utf8ByteSize_ofList, length_of_digits h]
  intro c hc
  apply utf8Size_of_toUpper
  apply digits_subset_alphabet count n
  rw [← h]
  exact List.mem_map_of_mem hc

/-- Characters that are, in capital letters, the digits of a number. -/
def Spells (body : List Char) (n : Nat) : Prop :=
  n < 32 ^ width ∧ body.map Char.toUpper = digits width n

theorem map_toUpper_digits (count n : Nat) : (digits count n).map Char.toUpper = digits count n := by
  have hall : alphabet.all (fun c => c.toUpper == c) = true := by decide
  refine (List.map_congr_left ?_).trans (List.map_id _)
  intro c hc
  exact beq_iff_eq.mp (List.all_eq_true.mp hall c (digits_subset_alphabet count n c hc))

theorem digits_inj {count m n : Nat} (hm : m < 32 ^ count) (hn : n < 32 ^ count) :
    digits count m = digits count n ↔ m = n := by
  constructor
  · intro hsame
    have hread := fold?_digits count 0 m
    rw [hsame, fold?_digits, Nat.mod_eq_of_lt hm, Nat.mod_eq_of_lt hn] at hread
    have hvalue := Option.some.inj hread
    omega
  · exact congrArg (digits count)

theorem Spells.not_mem (h : Spells body n) : '_' ∉ body := by
  intro hmem
  have hdigit : '_' ∈ body.map Char.toUpper := List.mem_map_of_mem hmem
  rw [h.right] at hdigit
  exact absurd (digits_subset_alphabet _ _ _ hdigit) (by decide)

theorem decode_eq_ok_iff {m : Nat} :
    decode (String.ofList body) = .ok m ↔ ∃ n, Spells body n ∧ n % capacity = m := by
  constructor
  · intro h
    rw [decode, String.toList_ofList] at h
    split at h
    next =>
      cases h
    next hsize =>
      split at h
      next n hfold =>
        cases h
        rcases fold?_eq_some_iff.mp hfold with hspells
        rw [← utf8ByteSize_of_digits hspells.right, not_not.mp hsize] at hspells
        exact ⟨n, hspells, rfl⟩
      next =>
        cases h
  · rintro ⟨n, hspells, rfl⟩
    have hfold : fold? 0 body = some n := by
      rw [fold?_eq_some_iff, length_of_digits hspells.right]
      exact hspells
    rw [decode, String.toList_ofList, hfold, utf8ByteSize_of_digits hspells.right]
    rfl

end Base32

def IdKind.Spells (kind : IdKind) (t : String) (n : Nat) : Prop :=
  ∃ body, t.toList = kind.tag.toList ++ '_' :: body ∧ Base32.Spells body n

/-- A text has no small letters behind the prefix of a kind. -/
def IdKind.Capital (kind : IdKind) (t : String) : Prop :=
  ∃ body, t.toList = kind.tag.toList ++ '_' :: body ∧ body.map Char.toUpper = body

namespace Id

variable {kind : IdKind} {t : String} {n : Nat}

/-!
# Accepted texts
-/

theorem toList_text (id : Id kind) :
    id.text.toList = kind.tag.toList ++ '_' :: Base32.digits Base32.width id.value := by
  simp [text, Base32.encode]

theorem ofNat_eq_iff {id : Id kind} : ofNat n = id ↔ n % Base32.capacity = id.value := by
  rw [← value_inj]
  rfl

theorem ofText_eq_ok_iff {id : Id kind} : ofText t = .ok id ↔ ∃ n, kind.Spells t n ∧ ofNat n = id := by
  constructor
  · intro h
    rw [ofText] at h
    split at h
    next =>
      cases h
    next =>
      split at h
      next =>
        cases h
      next front back hsplit =>
        simp only at h
        split at h
        next =>
          cases h
        next htag =>
          split at h
          next m hdecoded =>
            cases h
            rcases Base32.decode_eq_ok_iff.mp hdecoded with ⟨n, hspells, rfl⟩
            refine ⟨n, ⟨back, ?_, hspells⟩, ?_⟩
            · rw [← not_not.mp htag, String.toList_ofList]
              exact Text.eq_append_of_splitLast? hsplit
            · exact ofNat_eq_iff.mpr (Nat.mod_mod n _).symm
          next =>
            cases h
  · rintro ⟨n, ⟨body, hlist, hspells⟩, rfl⟩
    have hnonempty : t.isEmpty = false := by
      rw [← Bool.not_eq_true, String.isEmpty_iff, ← String.toList_eq_nil_iff, hlist]
      simp
    have hdecoded : Base32.decode (String.ofList body) = .ok (n % Base32.capacity) :=
      Base32.decode_eq_ok_iff.mpr ⟨n, hspells, rfl⟩
    have hsame : (ofNat (n % Base32.capacity) : Id kind) = ofNat n :=
      ofNat_eq_iff.mpr (Nat.mod_mod n _)
    simp [ofText, hnonempty, hlist, Text.splitLast?_append kind.tag.toList hspells.not_mem, hdecoded, hsame]

theorem text_ofNat_eq_iff (h : kind.Spells t n) :
    (ofNat n : Id kind).text = t ↔ kind.Capital t ∧ n < Base32.capacity := by
  rcases h with ⟨body, hlist, hbound, hspells⟩
  rw [← String.toList_inj, toList_text, hlist]
  constructor
  · intro hsame
    have hbody : Base32.digits Base32.width (n % Base32.capacity) = body :=
      (List.cons.inj (List.append_cancel_left hsame)).right
    have hcapital : body.map Char.toUpper = body := by
      rw [← hbody, Base32.map_toUpper_digits]
    have hlow : n % Base32.capacity < 32 ^ Base32.width :=
      Nat.lt_of_le_of_lt (Nat.mod_le n _) hbound
    rw [hcapital, ← hbody, Base32.digits_inj hlow hbound] at hspells
    exact ⟨⟨body, hlist, hcapital⟩, Nat.mod_eq_iff_lt (by decide) |>.mp hspells⟩
  · rintro ⟨⟨other, hother, hcapital⟩, hfits⟩
    have hbody : other = body :=
      (List.cons.inj (List.append_cancel_left (hother.symm.trans hlist))).right
    rw [hbody, hspells] at hcapital
    show _ ++ '_' :: Base32.digits Base32.width (n % Base32.capacity) = _
    rw [Nat.mod_eq_of_lt hfits, hcapital]

/-- A text is accepted exactly if it is the prefix, an underscore and the digits of a number, in either
case; it stands for the lowest 128 bits of that number.  It is written back as it is exactly if its
letters are capital ones and the number has no other bits. -/
theorem accepted_texts (kind : IdKind) (t : String) :
    (∀ id : Id kind, ofText t = .ok id ↔ ∃ n, kind.Spells t n ∧ ofNat n = id) ∧
    ∀ n, kind.Spells t n →
      ((ofNat n : Id kind).text = t ↔ kind.Capital t ∧ n < Base32.capacity) :=
  ⟨fun _ => ofText_eq_ok_iff, fun _ => text_ofNat_eq_iff⟩

/-!
# Texts that are not written
-/

def overfull : String :=
  "srv_80000000000000000000000000"

def small : String :=
  "srv_01hv4z4nypctrs0jtva8xdme5f"

theorem spells_overfull : IdKind.server.Spells overfull (2 ^ 128) :=
  ⟨"80000000000000000000000000".toList, by decide, by decide, by decide +kernel⟩

theorem spells_small : IdKind.server.Spells small 2070630114426914770587058520467323055 :=
  ⟨"01hv4z4nypctrs0jtva8xdme5f".toList, by decide, by decide, by decide +kernel⟩

/-- Two different texts are accepted as one server, and a text in small letters is written back as
another. -/
theorem two_texts_name_one_server :
    (∃ id : ServerId, ofText overfull = .ok id ∧ ofText id.text = .ok id ∧ id.text ≠ overfull) ∧
      ∃ id : ServerId, ofText small = .ok id ∧ ofText id.text = .ok id ∧ id.text ≠ small := by
  constructor
  · refine ⟨_, ofText_eq_ok_iff.mpr ⟨_, spells_overfull, rfl⟩, ofText_text _, ?_⟩
    rw [Ne, text_ofNat_eq_iff spells_overfull]
    rintro ⟨_, hfits⟩
    exact absurd hfits (by decide)
  · refine ⟨_, ofText_eq_ok_iff.mpr ⟨_, spells_small, rfl⟩, ofText_text _, ?_⟩
    decide +kernel

theorem accepted_texts_overfull :
    IdKind.server.Spells overfull (2 ^ 128) ∧ (ofNat (2 ^ 128) : ServerId).text ≠ overfull := by
  refine ⟨spells_overfull, ?_⟩
  rw [Ne, (accepted_texts .server overfull).right _ spells_overfull]
  rintro ⟨_, hfits⟩
  exact absurd hfits (by decide)

end Id
end ServerFleet
