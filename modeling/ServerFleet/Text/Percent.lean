import ServerFleet.Text.Split

/-!
# Percent coding

Decoding of `%` followed by two hexadecimal digits into bytes.  A `%` without
two such digits stands for itself.  Path parameters must decode to valid UTF-8;
form fields also read `+` as a space and replace what is not valid UTF-8.
-/

namespace ServerFleet
namespace Text

def hexValue? (c : Char) : Option Nat :=
  if c.isDigit then some (c.toNat - '0'.toNat)
  else if 'a' ≤ c && c ≤ 'f' then some (c.toNat - 'a'.toNat + 10)
  else if 'A' ≤ c && c ≤ 'F' then some (c.toNat - 'A'.toNat + 10)
  else none

def percentBytes : List Char → List UInt8
  | '%' :: a :: b :: rest =>
      match hexValue? a, hexValue? b with
      | some h, some l => UInt8.ofNat (h * 16 + l) :: percentBytes rest
      | _, _ => 0x25 :: percentBytes (a :: b :: rest)
  | c :: rest => (String.singleton c).toUTF8.toList ++ percentBytes rest
  | [] => []

def percentDecode? (s : String) : Option String :=
  String.fromUTF8? (ByteArray.mk (percentBytes s.toList).toArray)

/-- The lead of a UTF-8 character: continuation bytes due, and the bounds of the first of them. -/
def utf8Lead? (b : Nat) : Option (Nat × Nat × Nat) :=
  if b < 0x80 then some (0, 0, 0)
  else if 0xC2 ≤ b && b ≤ 0xDF then some (1, 0x80, 0xBF)
  else if b == 0xE0 then some (2, 0xA0, 0xBF)
  else if b == 0xED then some (2, 0x80, 0x9F)
  else if 0xE1 ≤ b && b ≤ 0xEF then some (2, 0x80, 0xBF)
  else if b == 0xF0 then some (3, 0x90, 0xBF)
  else if 0xF1 ≤ b && b ≤ 0xF3 then some (3, 0x80, 0xBF)
  else if b == 0xF4 then some (3, 0x80, 0x8F)
  else none

/-- A UTF-8 character under way: its value so far, bytes due, bounds of the next byte. -/
structure PartialChar where
  value : Nat
  due : Nat
  low : Nat
  high : Nat

/-- Decodes bytes, putting U+FFFD for each longest broken piece of a character. -/
def utf8Lossy : Option PartialChar → List UInt8 → List Char
  | none, [] => []
  | some _, [] => ['\uFFFD']
  | none, b :: rest => startChar b.toNat rest
  | some p, b :: rest =>
      let n := b.toNat
      if p.low ≤ n && n ≤ p.high then
        let value := p.value * 64 + n % 64
        if p.due ≤ 1 then Char.ofNat value :: utf8Lossy none rest
        else utf8Lossy (some { value, due := p.due - 1, low := 0x80, high := 0xBF }) rest
      else '\uFFFD' :: startChar n rest
where
  startChar (n : Nat) (rest : List UInt8) : List Char :=
    match utf8Lead? n with
    | none => '\uFFFD' :: utf8Lossy none rest
    | some (0, _, _) => Char.ofNat n :: utf8Lossy none rest
    | some (due, low, high) =>
        let bits := if due == 1 then n % 32 else if due == 2 then n % 16 else n % 8
        utf8Lossy (some { value := bits, due, low, high }) rest

def formDecode (s : String) : String :=
  let plain := s.toList.map fun c => if c == '+' then ' ' else c
  String.ofList (utf8Lossy none (percentBytes plain))

/-- The pairs of a form, in order; a piece without `=` has an empty value. -/
def formPairs (query : String) : List (String × String) :=
  (splitOn '&' query.toList).filterMap fun piece =>
    if piece.isEmpty then none
    else
      let name := piece.takeWhile (· != '=')
      let value := (piece.dropWhile (· != '=')).drop 1
      some (formDecode (String.ofList name), formDecode (String.ofList value))

end Text
end ServerFleet
