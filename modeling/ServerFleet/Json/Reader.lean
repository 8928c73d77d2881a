import ServerFleet.Json.Numeral
import ServerFleet.Json.Quoted

/-!
# Reading JSON

The reading of a whole text.  Every value is read at most once; a place at which
not even passing over goes on ends the reading.
-/

namespace ServerFleet
namespace Json

def isSpace (c : Char) : Bool :=
  c == ' ' || c == '\n' || c == '\t' || c == '\r'

def skipSpace (s : List Char) : List Char :=
  s.dropWhile isSpace

def literal (r : Reading) : List Char → List Char → Reading × Option (List Char)
  | [], s => (r, some s)
  | _ :: _, [] => (.broken .truncated, none)
  | c :: word, d :: s => if c = d then literal r word s else (.broken .malformed, none)

def follow (scan : Scan α) (rest : List Char) : Option (List Char) :=
  match scan.passed with
  | none => some rest
  | some _ => none

mutual

/-- Reads the value in front of a text, and gives what follows it if the text goes on. -/
def readValue : Nat → List Char → Reading × Option (List Char)
  | 0, _ => (.absent, none)
  | fuel + 1, s =>
      match skipSpace s with
      | [] => (.absent, none)
      | '"' :: rest =>
          let (scan, rest) := Quoted.scan rest
          (.string scan, follow scan rest)
      | '[' :: rest =>
          match skipSpace rest with
          | [] => (.array [] (.stopped .truncated), none)
          | ']' :: rest => (.array [] .closed, some rest)
          | rest =>
              let (items, tail, rest) := readItems fuel rest
              (.array items tail, rest)
      | '\x7b' :: rest =>
          match skipSpace rest with
          | [] => (.object [] (.stopped .truncated), none)
          | '\x7d' :: rest => (.object [] .closed, some rest)
          | '"' :: rest =>
              let (members, tail, rest) := readMembers fuel rest
              (.object members tail, rest)
          | _ => (.object [] (.stopped .malformed), none)
      | 'n' :: rest => literal .null ['u', 'l', 'l'] rest
      | 't' :: rest => literal (.bool true) ['r', 'u', 'e'] rest
      | 'f' :: rest => literal (.bool false) ['a', 'l', 's', 'e'] rest
      | c :: rest =>
          if c = '-' || c.isDigit then
            let (scan, rest) := Numeral.scan (c :: rest)
            (.number scan, follow scan rest)
          else (.broken .malformed, none)

def readItems : Nat → List Char → List Reading × Tail × Option (List Char)
  | 0, _ => ([], .stopped .truncated, none)
  | fuel + 1, s =>
      match readValue fuel s with
      | (item, none) => ([item], .closed, none)
      | (item, some rest) =>
          match skipSpace rest with
          | [] => ([item], .stopped .truncated, none)
          | ']' :: rest => ([item], .closed, some rest)
          | ',' :: rest =>
              match skipSpace rest with
              | [] => ([item], .dangling .truncated, none)
              | ']' :: _ => ([item], .dangling .malformed, none)
              | rest =>
                  let (items, tail, rest) := readItems fuel rest
                  (item :: items, tail, rest)
          | _ => ([item], .stopped .malformed, none)

def readMembers : Nat → List Char → List (Scan String × Reading) × Tail × Option (List Char)
  | 0, _ => ([], .stopped .truncated, none)
  | fuel + 1, s =>
      let (key, rest) := Quoted.scan s
      match follow key rest with
      | none => ([(key, .absent)], .closed, none)
      | some rest =>
          match skipSpace rest with
          | [] => ([(key, .absent)], .closed, none)
          | ':' :: rest =>
              match readValue fuel rest with
              | (value, none) => ([(key, value)], .closed, none)
              | (value, some rest) =>
                  match skipSpace rest with
                  | [] => ([(key, value)], .stopped .truncated, none)
                  | '\x7d' :: rest => ([(key, value)], .closed, some rest)
                  | ',' :: rest =>
                      match skipSpace rest with
                      | [] => ([(key, value)], .dangling .truncated, none)
                      | '"' :: rest =>
                          let (members, tail, rest) := readMembers fuel rest
                          ((key, value) :: members, tail, rest)
                      | _ => ([(key, value)], .dangling .malformed, none)
                  | _ => ([(key, value)], .stopped .malformed, none)
          | _ => ([(key, .broken .malformed)], .closed, none)

end

structure Document where
  reading : Reading
  complete : Bool

def Document.ofText (text : String) : Document :=
  let s := text.toList
  match readValue (2 * s.length + 2) s with
  | (reading, some rest) => ⟨reading, (skipSpace rest).isEmpty⟩
  | (reading, none) => ⟨reading, false⟩

end Json
end ServerFleet
