import ServerFleet.Json.Reading
import ServerFleet.Text.Percent

/-!
# Quoted strings

Strings in JSON text.  Quotes, backslashes and control characters are written as
escapes, every other character as itself.  In reading, `\u` escapes are UTF-16
units, which must pair up if they are surrogates.
-/

namespace ServerFleet
namespace Json
namespace Quoted

/-!
# Writing
-/

def hexDigit (n : Nat) : Char :=
  if n < 10 then Char.ofNat ('0'.toNat + n) else Char.ofNat ('a'.toNat + (n - 10))

def charText (c : Char) : List Char :=
  if c = '"' then ['\\', '"']
  else if c = '\\' then ['\\', '\\']
  else if c = '\n' then ['\\', 'n']
  else if c = '\r' then ['\\', 'r']
  else if c = '\t' then ['\\', 't']
  else if c.toNat = 8 then ['\\', 'b']
  else if c.toNat = 12 then ['\\', 'f']
  else if c.toNat < 32 then
    ['\\', 'u', '0', '0', hexDigit (c.toNat / 16), hexDigit (c.toNat % 16)]
  else [c]

def text (s : String) : List Char :=
  '"' :: (s.toList.flatMap charText ++ ['"'])

/-!
# Reading
-/

/-- A piece of a quoted text: a character, or a UTF-16 unit from an escape. -/
inductive Piece where
  | char (c : Char)
  | unit (n : Nat)
deriving DecidableEq, Repr

/-- The body of a quoted text: its pieces, and what follows the closing quote or the fault before it. -/
structure Body where
  pieces : List Piece
  rest : Except Fault (List Char)

def Body.cons (p : Piece) (b : Body) : Body :=
  { b with pieces := p :: b.pieces }

def Body.fault (f : Fault) : Body :=
  ⟨[], .error f⟩

def escaped? (c : Char) : Option Char :=
  if c = '"' then some '"'
  else if c = '\\' then some '\\'
  else if c = '/' then some '/'
  else if c = 'b' then some (Char.ofNat 8)
  else if c = 'f' then some (Char.ofNat 12)
  else if c = 'n' then some '\n'
  else if c = 'r' then some '\r'
  else if c = 't' then some '\t'
  else none

def unit? (a b c d : Char) : Option Nat :=
  match Text.hexValue? a, Text.hexValue? b, Text.hexValue? c, Text.hexValue? d with
  | some w, some x, some y, some z => some (((w * 16 + x) * 16 + y) * 16 + z)
  | _, _, _, _ => none

/-- The fault of an escape without four hexadecimal digits: an early end if four bytes are not left. -/
def unitFault (s : List Char) : Fault :=
  if (String.ofList (s.take 4)).utf8ByteSize < 4 then .truncated else .malformed

def body : List Char → Body
  | [] => .fault .truncated
  | '"' :: rest => ⟨[], .ok rest⟩
  | '\\' :: 'u' :: a :: b :: c :: d :: rest =>
      match unit? a b c d with
      | some n => (body rest).cons (.unit n)
      | none => .fault .malformed
  | '\\' :: 'u' :: rest => .fault (unitFault rest)
  | ['\\'] => .fault .truncated
  | '\\' :: e :: rest =>
      match escaped? e with
      | some c => (body rest).cons (.char c)
      | none => .fault .malformed
  | c :: rest =>
      if c.toNat < 32 then .fault .malformed else (body rest).cons (.char c)

/-- The characters of pieces, which end in `last`; a surrogate without its partner is malformed. -/
def chars (last : Option Fault) : List Piece → Except Fault (List Char)
  | [] =>
      match last with
      | none => .ok []
      | some f => .error f
  | .char c :: rest => (chars last rest).map (c :: ·)
  | .unit n :: rest =>
      if n < 0xD800 ∨ 0xDFFF < n then (chars last rest).map (Char.ofNat n :: ·)
      else if 0xDC00 ≤ n then .error .malformed
      else
        match rest with
        | .unit m :: rest =>
            if 0xDC00 ≤ m ∧ m ≤ 0xDFFF then
              let c := Char.ofNat (0x10000 + (n - 0xD800) * 0x400 + (m - 0xDC00))
              (chars last rest).map (c :: ·)
            else .error .malformed
        | .char _ :: _ => .error .malformed
        | [] => .error (last.getD .malformed)

def scan (s : List Char) : Scan String × List Char :=
  let b := body s
  match b.rest with
  | .ok rest => (⟨(chars none b.pieces).map String.ofList, none⟩, rest)
  | .error f => (⟨(chars (some f) b.pieces).map String.ofList, some f⟩, [])

end Quoted
end Json
end ServerFleet
