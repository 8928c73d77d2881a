import ServerFleet.Json.Decode
import ServerFleet.Proofs.Codec.Scalar

/-!
# Reading back documents

The reading of a written value is the value itself, with nothing broken in it.  The
numbers of such a value are natural and fit a word.  The fuel of the reader is
enough as soon as it is not less than the length of the text.
-/

namespace ServerFleet
namespace Json
namespace Value

/-!
# Plain values
-/

mutual

/-- The numbers of a value are natural and fit a word. -/
def Plain : Value → Prop
  | .null => True
  | .bool _ => True
  | .number (.natural n) => n < Numeral.wordBound
  | .number _ => False
  | .string _ => True
  | .array items => PlainItems items
  | .object members => PlainMembers members

def PlainItems : List Value → Prop
  | [] => True
  | v :: rest => Plain v ∧ PlainItems rest

def PlainMembers : List (String × Value) → Prop
  | [] => True
  | m :: rest => Plain m.2 ∧ PlainMembers rest

end

def Delimited (rest : List Char) : Prop :=
  ∀ c, rest.head? = some c → c = ',' ∨ c = ']' ∨ c = '\x7d'

theorem delimited_nil : Delimited [] := by
  intro c h
  cases h

theorem delimited_cons {c : Char} (rest : List Char) (h : c = ',' ∨ c = ']' ∨ c = '\x7d') :
    Delimited (c :: rest) := by
  intro d hd
  cases hd
  exact h

theorem Delimited.ended {rest : List Char} (h : Delimited rest) : Numeral.Ended rest := by
  intro c hc
  rcases h c hc with rfl | rfl | rfl <;> decide

theorem delimited_itemChars (items : List Value) (rest : List Char) :
    Delimited (itemChars items ++ rest) := by
  cases items with
  | nil =>
      exact delimited_cons rest (Or.inr (Or.inl rfl))
  | cons v items =>
      exact delimited_cons _ (Or.inl rfl)

theorem delimited_memberChars (members : List (String × Value)) (rest : List Char) :
    Delimited (memberChars members ++ rest) := by
  cases members with
  | nil =>
      exact delimited_cons rest (Or.inr (Or.inr rfl))
  | cons m members =>
      exact delimited_cons _ (Or.inl rfl)

/-!
# First characters
-/

theorem isSpace_of_isDigit {c : Char} (h : c.isDigit = true) : isSpace c = false := by
  simp only [isSpace, Bool.or_eq_false_iff, beq_eq_false_iff_ne, ne_eq]
  refine ⟨⟨⟨?_, ?_⟩, ?_⟩, ?_⟩ <;>
    (intro hsame; subst hsame; exact absurd h (by decide))

theorem chars_head {v : Value} (h : v.Plain) :
    ∃ c tail, v.chars = c :: tail ∧ isSpace c = false ∧ c ≠ ']' := by
  cases v with
  | null =>
      exact ⟨'n', _, by rw [chars], by decide, by decide⟩
  | bool b =>
      cases b with
      | true =>
          exact ⟨'t', _, by rw [chars], by decide, by decide⟩
      | false =>
          exact ⟨'f', _, by rw [chars], by decide, by decide⟩
  | number n =>
      cases n with
      | natural n =>
          cases hdigits : Nat.toDigits 10 n with
          | nil =>
              exact absurd hdigits Nat.toDigits_ne_nil
          | cons c ds =>
              have hc := Text.allDigits_toDigits n c (by rw [hdigits]; exact List.mem_cons_self)
              refine ⟨c, ds, by simp only [chars, Numeral.text, hdigits], isSpace_of_isDigit hc, ?_⟩
              intro hsame
              subst hsame
              exact absurd hc (by decide)
      | negative n =>
          exact absurd h (by simp [Plain])
      | real x =>
          exact absurd h (by simp [Plain])
  | string s =>
      exact ⟨'"', _, by rw [chars, Quoted.text], by decide, by decide⟩
  | array items =>
      cases items with
      | nil =>
          exact ⟨'[', _, by rw [chars], by decide, by decide⟩
      | cons v items =>
          exact ⟨'[', _, by rw [chars], by decide, by decide⟩
  | object members =>
      cases members with
      | nil =>
          exact ⟨'\x7b', _, by rw [chars], by decide, by decide⟩
      | cons m members =>
          exact ⟨'\x7b', _, by rw [chars], by decide, by decide⟩

theorem skipSpace_cons {c : Char} (tail : List Char) (h : isSpace c = false) :
    skipSpace (c :: tail) = c :: tail := by
  simp [skipSpace, h]

theorem length_chars_pos {v : Value} (h : v.Plain) : 0 < v.chars.length := by
  rcases chars_head h with ⟨c, tail, hchars, _, _⟩
  simp [hchars]

/-!
# Scalars
-/

theorem readValue_natural {n : Nat} (hn : n < Numeral.wordBound) (fuel : Nat) {rest : List Char}
    (hrest : Numeral.Ended rest) :
    readValue (fuel + 1) (Nat.toDigits 10 n ++ rest) =
      (.number (.ofValue (.natural n)), some rest) := by
  have hscan := Numeral.scan_toDigits hn hrest
  have hdigits := Text.allDigits_toDigits n
  cases htext : Nat.toDigits 10 n with
  | nil =>
      exact absurd htext Nat.toDigits_ne_nil
  | cons c ds =>
      rw [htext] at hscan hdigits
      have hc : c.isDigit = true := hdigits c List.mem_cons_self
      have hother : ∀ d : Char, d.isDigit = false → c ≠ d := by
        intro d hd hsame
        rw [← hsame, hc] at hd
        cases hd
      simp only [List.cons_append] at hscan ⊢
      simp [readValue, skipSpace_cons (ds ++ rest) (isSpace_of_isDigit hc), hc, hscan, follow,
        Scan.ofValue, hother '"' (by decide), hother '[' (by decide), hother '\x7b' (by decide),
        hother 'n' (by decide), hother 't' (by decide), hother 'f' (by decide)]

theorem readValue_string (s : String) (fuel : Nat) (rest : List Char) :
    readValue (fuel + 1) (Quoted.text s ++ rest) = (.string (.ofValue s), some rest) := by
  have hspace : isSpace '"' = false := by decide
  simp [Quoted.text, readValue, skipSpace_cons _ hspace, Quoted.scan_text, follow, Scan.ofValue]

/-!
# Lists and whole values
-/

/-- What follows an opening bracket is read as items if it starts with a value. -/
theorem readValue_array {v : Value} (hv : v.Plain) (fuel : Nat) (tail : List Char)
    {items : List Reading} {rest : List Char}
    (h : readItems fuel (v.chars ++ tail) = (items, .closed, some rest)) :
    readValue (fuel + 1) ('[' :: (v.chars ++ tail)) = (.array items .closed, some rest) := by
  rcases chars_head hv with ⟨c, more, hchars, hspace, hclose⟩
  have hopen : isSpace '[' = false := by decide
  rw [hchars, List.cons_append] at h ⊢
  simp [readValue, skipSpace_cons _ hopen, skipSpace_cons _ hspace, hclose, h]

theorem readValue_object (key : String) (fuel : Nat) (tail : List Char)
    {members : List (Scan String × Reading)} {rest : List Char}
    (h : readMembers fuel (key.toList.flatMap Quoted.charText ++ '"' :: tail) =
      (members, .closed, some rest)) :
    readValue (fuel + 1) ('\x7b' :: (Quoted.text key ++ tail)) =
      (.object members .closed, some rest) := by
  have hopen : isSpace '\x7b' = false := by decide
  have hquote : isSpace '"' = false := by decide
  simp [Quoted.text, readValue, skipSpace_cons _ hopen, skipSpace_cons _ hquote, h]

theorem readItems_last {v : Reading} {s rest : List Char} (fuel : Nat)
    (h : readValue fuel s = (v, some (']' :: rest))) :
    readItems (fuel + 1) s = ([v], .closed, some rest) := by
  have hclose : isSpace ']' = false := by decide
  simp [readItems, h, skipSpace_cons _ hclose]

theorem readItems_more {r : Reading} {v : Value} (hv : v.Plain) {s tail rest : List Char}
    {items : List Reading} (fuel : Nat)
    (h : readValue fuel s = (r, some (',' :: (v.chars ++ tail))))
    (hmore : readItems fuel (v.chars ++ tail) = (items, .closed, some rest)) :
    readItems (fuel + 1) s = (r :: items, .closed, some rest) := by
  rcases chars_head hv with ⟨c, more, hchars, hspace, hclose⟩
  have hcomma : isSpace ',' = false := by decide
  rw [hchars, List.cons_append] at h hmore
  simp [readItems, h, skipSpace_cons _ hcomma, skipSpace_cons _ hspace, hclose, hmore]

theorem readMembers_last {r : Reading} {key : String} {s rest : List Char} (fuel : Nat)
    (h : readValue fuel s = (r, some ('\x7d' :: rest))) :
    readMembers (fuel + 1) (key.toList.flatMap Quoted.charText ++ '"' :: ':' :: s) =
      ([(.ofValue key, r)], .closed, some rest) := by
  have hcolon : isSpace ':' = false := by decide
  have hclose : isSpace '\x7d' = false := by decide
  simp [readMembers, Quoted.scan_text, follow, Scan.ofValue, skipSpace_cons _ hcolon,
    skipSpace_cons _ hclose, h]

theorem readMembers_more {r : Reading} {key next : String} {s tail rest : List Char}
    {members : List (Scan String × Reading)} (fuel : Nat)
    (h : readValue fuel s = (r, some (',' :: (Quoted.text next ++ tail))))
    (hmore : readMembers fuel (next.toList.flatMap Quoted.charText ++ '"' :: tail) =
      (members, .closed, some rest)) :
    readMembers (fuel + 1) (key.toList.flatMap Quoted.charText ++ '"' :: ':' :: s) =
      ((.ofValue key, r) :: members, .closed, some rest) := by
  have hcolon : isSpace ':' = false := by decide
  have hcomma : isSpace ',' = false := by decide
  have hquote : isSpace '"' = false := by decide
  simp only [Quoted.text, List.cons_append, List.append_assoc, List.nil_append] at h
  simp [readMembers, Quoted.scan_text, follow, Scan.ofValue, skipSpace_cons _ hcolon,
    skipSpace_cons _ hcomma, skipSpace_cons _ hquote, h, hmore]

theorem readValue_literal (v : Value) (fuel : Nat) (rest : List Char)
    (h : v = .null ∨ ∃ b, v = .bool b) :
    readValue (fuel + 1) (v.chars ++ rest) = (Reading.ofValue v, some rest) := by
  have hn : isSpace 'n' = false := by decide
  have ht : isSpace 't' = false := by decide
  have hf : isSpace 'f' = false := by decide
  rcases h with rfl | ⟨b, rfl⟩
  · simp [chars, readValue, skipSpace_cons _ hn, literal, Reading.ofValue]
  · cases b with
    | true =>
        simp [chars, readValue, skipSpace_cons _ ht, literal, Reading.ofValue]
    | false =>
        simp [chars, readValue, skipSpace_cons _ hf, literal, Reading.ofValue]

/-- With this much fuel every text that is not longer reads back, be it of a value, of items or of members. -/
structure ReadsBack (fuel : Nat) : Prop where
  value : ∀ (v : Value) (rest : List Char), v.Plain → v.chars.length ≤ fuel → Delimited rest →
    readValue fuel (v.chars ++ rest) = (Reading.ofValue v, some rest)
  items : ∀ (v : Value) (items : List Value) (rest : List Char), PlainItems (v :: items) →
    (v.chars ++ itemChars items).length ≤ fuel →
    readItems fuel (v.chars ++ (itemChars items ++ rest)) =
      (Reading.ofItems (v :: items), .closed, some rest)
  members : ∀ (m : String × Value) (members : List (String × Value)) (rest : List Char),
    PlainMembers (m :: members) → (m.2.chars ++ memberChars members).length < fuel →
    readMembers fuel (m.1.toList.flatMap Quoted.charText ++
      '"' :: ':' :: (m.2.chars ++ (memberChars members ++ rest))) =
      (Reading.ofMembers (m :: members), .closed, some rest)

theorem ReadsBack.value_succ {fuel : Nat} (h : ReadsBack fuel) (v : Value) (rest : List Char)
    (hv : v.Plain) (hfuel : v.chars.length ≤ fuel + 1) (hrest : Delimited rest) :
    readValue (fuel + 1) (v.chars ++ rest) = (Reading.ofValue v, some rest) := by
  match v with
  | .null =>
      exact readValue_literal .null fuel rest (Or.inl rfl)
  | .bool b =>
      exact readValue_literal (.bool b) fuel rest (Or.inr ⟨b, rfl⟩)
  | .number (.natural n) =>
      rw [chars]
      exact readValue_natural hv fuel hrest.ended
  | .string s =>
      rw [chars]
      exact readValue_string s fuel rest
  | .array [] =>
      have hopen : isSpace '[' = false := by decide
      have hclose : isSpace ']' = false := by decide
      simp [chars, readValue, skipSpace_cons _ hopen, skipSpace_cons _ hclose,
        Reading.ofValue, Reading.ofItems]
  | .array (w :: items) =>
      rw [chars, List.length_cons] at hfuel
      rw [chars, List.cons_append, List.append_assoc, Reading.ofValue]
      exact readValue_array hv.left fuel _ (h.items w items rest hv (by omega))
  | .object [] =>
      have hopen : isSpace '\x7b' = false := by decide
      have hclose : isSpace '\x7d' = false := by decide
      simp [chars, readValue, skipSpace_cons _ hopen, skipSpace_cons _ hclose,
        Reading.ofValue, Reading.ofMembers]
  | .object (m :: members) =>
      rw [chars, List.length_cons, List.length_append, List.length_cons] at hfuel
      rw [chars, List.cons_append, List.append_assoc, List.cons_append, List.append_assoc,
        Reading.ofValue]
      exact readValue_object m.1 fuel _ (h.members m members rest hv (by omega))

theorem ReadsBack.items_succ {fuel : Nat} (h : ReadsBack fuel) (v : Value) (items : List Value)
    (rest : List Char) (hv : PlainItems (v :: items))
    (hfuel : (v.chars ++ itemChars items).length ≤ fuel + 1) :
    readItems (fuel + 1) (v.chars ++ (itemChars items ++ rest)) =
      (Reading.ofItems (v :: items), .closed, some rest) := by
  have hpos := length_chars_pos hv.left
  rw [List.length_append] at hfuel
  cases items with
  | nil =>
      rw [itemChars, List.length_singleton] at hfuel
      have hvalue := h.value v (itemChars [] ++ rest) hv.left (by omega)
        (delimited_itemChars [] rest)
      exact readItems_last fuel hvalue
  | cons w more =>
      rw [itemChars, List.length_cons] at hfuel
      have hvalue := h.value v (itemChars (w :: more) ++ rest) hv.left (by omega)
        (delimited_itemChars (w :: more) rest)
      have hmore := h.items w more rest hv.right (by omega)
      rw [itemChars, List.cons_append, List.append_assoc] at hvalue ⊢
      exact readItems_more hv.right.left fuel hvalue hmore

theorem ReadsBack.members_succ {fuel : Nat} (h : ReadsBack fuel) (m : String × Value)
    (members : List (String × Value)) (rest : List Char) (hm : PlainMembers (m :: members))
    (hfuel : (m.2.chars ++ memberChars members).length < fuel + 1) :
    readMembers (fuel + 1) (m.1.toList.flatMap Quoted.charText ++
      '"' :: ':' :: (m.2.chars ++ (memberChars members ++ rest))) =
      (Reading.ofMembers (m :: members), .closed, some rest) := by
  rw [List.length_append] at hfuel
  cases members with
  | nil =>
      have hvalue := h.value m.2 (memberChars [] ++ rest) hm.left (by omega)
        (delimited_memberChars [] rest)
      exact readMembers_last fuel hvalue
  | cons next more =>
      rw [memberChars, List.length_cons, List.length_append, List.length_cons] at hfuel
      have hvalue := h.value m.2 (memberChars (next :: more) ++ rest) hm.left (by omega)
        (delimited_memberChars (next :: more) rest)
      have hmore := h.members next more rest hm.right (by omega)
      rw [memberChars, List.cons_append, List.append_assoc, List.cons_append,
        List.append_assoc] at hvalue ⊢
      exact readMembers_more fuel hvalue hmore

theorem readsBack (fuel : Nat) : ReadsBack fuel := by
  induction fuel with
  | zero =>
      constructor
      · intro v rest hv hfuel _
        have hpos := length_chars_pos hv
        omega
      · intro v items rest hv hfuel
        have hpos := length_chars_pos hv.left
        rw [List.length_append] at hfuel
        omega
      · intro m members rest _ hfuel
        exact absurd hfuel (Nat.not_lt_zero _)
  | succ fuel ih =>
      constructor
      · exact ih.value_succ
      · exact ih.items_succ
      · exact ih.members_succ

/-!
# Whole texts
-/

theorem ofText_text {v : Value} (h : v.Plain) :
    Document.ofText v.text = ⟨Reading.ofValue v, true⟩ := by
  have hread := (readsBack (2 * v.chars.length + 2)).value v [] h (by omega) delimited_nil
  rw [List.append_nil] at hread
  simp [Document.ofText, text, hread, skipSpace]

end Value

theorem decodeText_text {v : Value} (h : v.Plain) (decode : Decoder α) :
    decodeText decode v.text = decode .text (Reading.ofValue v) := by
  simp only [decodeText, Value.ofText_text h]
  cases decode .text (Reading.ofValue v) with
  | error e =>
      rfl
  | ok a =>
      rfl

end Json
end ServerFleet
