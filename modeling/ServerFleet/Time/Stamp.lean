import ServerFleet.Text.Blank
import ServerFleet.Text.Digits
import ServerFleet.Time.Instant

/-!
# Time stamps

The RFC 3339 text of an instant.  Writing gives Universal Time, marked `Z`, with
0, 3, 6 or 9 digits of the second's fraction, the fewest that lose nothing.
Reading is more liberal: blanks may stand before every part, numbers need no
leading zeros, a blank may replace the `T`, and any offset of less than a day may
stand for `Z`.
-/

namespace ServerFleet
namespace Time

inductive StampFault where
  | outOfRange
  | impossible
  | invalid
  | tooShort
  | tooLong
deriving DecidableEq, Repr

def StampFault.message : StampFault → String
  | .outOfRange => "input is out of range"
  | .impossible => "no possible date and time matching input"
  | .invalid => "input contains invalid characters"
  | .tooShort => "premature end of input"
  | .tooLong => "trailing input"

namespace Stamp

open Text

/-!
# Parts
-/

/-- Reads a number of one digit at least and, if a width is given, of that many at most. -/
def number (width : Option Nat) (s : List Char) : Except StampFault (Nat × List Char) :=
  let (all, _) := spanDigits s
  let digits := match width with
    | some n => all.take n
    | none => all
  if digits.isEmpty then .error (if s.isEmpty then .tooShort else .invalid)
  else .ok (digitsValue digits, s.drop digits.length)

def bounded (low high : Nat) (s : List Char) : Except StampFault (Nat × List Char) :=
  match number (some 2) (trimFront s) with
  | .error e => .error e
  | .ok (n, rest) => if low ≤ n && n ≤ high then .ok (n, rest) else .error .outOfRange

/-- Reads a year: four digits at most, or any number of them behind a sign. -/
def year (s : List Char) : Except StampFault (Int × List Char) :=
  let found : Except StampFault (Int × List Char) :=
    match trimFront s with
    | '-' :: rest => (number none rest).map fun (n, rest) => (-(n : Int), rest)
    | '+' :: rest => (number none rest).map fun (n, rest) => ((n : Int), rest)
    | s => (number (some 4) s).map fun (n, rest) => ((n : Int), rest)
  match found with
  | .error e => .error e
  | .ok (n, rest) =>
      if -2147483648 ≤ n ∧ n ≤ 2147483647 then .ok (n, rest) else .error .outOfRange

def mark (c : Char) (s : List Char) : Except StampFault (List Char) :=
  match trimFront s with
  | [] => .error .tooShort
  | d :: rest => if d = c then .ok rest else .error .invalid

def separator : List Char → Except StampFault (List Char)
  | [] => .error .tooShort
  | c :: rest => if c = 'T' ∨ c = 't' ∨ c = ' ' then .ok rest else .error .invalid

/-- Reads the fraction of a second in nanoseconds; digits after the ninth are dropped. -/
def fraction : List Char → Except StampFault (Nat × List Char)
  | '.' :: s =>
      match number (some 9) s with
      | .error e => .error e
      | .ok (n, rest) =>
          let count := s.length - rest.length
          .ok (n * Nat.pow 10 (9 - count), rest.dropWhile Char.isDigit)
  | s => .ok (0, s)

def offsetDigits (tens : Nat) : List Char → Except StampFault (Nat × List Char)
  | [] => .error .tooShort
  | [c] => .error (if c.toNat < 0x80 then .tooShort else .invalid)
  | a :: b :: rest =>
      match digitValue? a, digitValue? b with
      | some h, some l => if h < tens then .ok (h * 10 + l, rest) else .error .outOfRange
      | _, _ => .error .invalid

def offset (s : List Char) : Except StampFault (Int × List Char) :=
  let signed (negative : Bool) (s : List Char) : Except StampFault (Int × List Char) :=
    match offsetDigits 10 s with
    | .error e => .error e
    | .ok (hours, rest) =>
        match offsetDigits 6 (rest.dropWhile fun c => c == ':' || isBlank c) with
        | .error e => .error e
        | .ok (minutes, rest) =>
            let seconds : Int := hours * 3600 + minutes * 60
            .ok (if negative then -seconds else seconds, rest)
  match s with
  | [] => .error .tooShort
  | c :: rest =>
      if c = 'Z' ∨ c = 'z' then .ok (0, rest)
      else if (s.take 3).map Char.toUpper = ['U', 'T', 'C'] then .ok (0, s.drop 3)
      else if c = '+' then signed false rest
      else if c = '-' ∨ c = '\u2212' then signed true rest
      else .error .invalid

/-!
# Whole stamps
-/

/-- The instant with these parts, in local time at an offset; second 60 is a leap second. -/
def instant (year : Int) (month day hour minute second nanos : Nat) (offset : Int) :
    Except StampFault Instant :=
  match Date.of? year month day with
  | none => .error .outOfRange
  | some date =>
      let leap := second == 60
      let inDay := hour * 3600 + minute * 60 + (if leap then 59 else second)
      let nanos := if leap then nanos + secondNanos else nanos
      if (daySeconds : Int) ≤ offset.natAbs then .error .outOfRange
      else
        match shiftBack? date inDay offset with
        | none => .error .impossible
        | some (date, inDay) =>
            match Instant.of? date inDay nanos with
            | none => .error .outOfRange
            | some t => .ok t

def read (s : List Char) : Except StampFault Instant := do
  let (y, s) ← year s
  let s ← mark '-' s
  let (mo, s) ← bounded 1 12 s
  let s ← mark '-' s
  let (d, s) ← bounded 1 31 s
  let s ← separator s
  let (h, s) ← bounded 0 23 s
  let s ← mark ':' s
  let (mi, s) ← bounded 0 59 s
  let s ← mark ':' s
  let (sec, s) ← bounded 0 60 s
  let (ns, s) ← fraction s
  let (off, s) ← offset (trimFront s)
  if (trimFront s).isEmpty then instant y mo d h mi sec ns off
  else .error .tooLong

/-- The text of a year: four digits, behind a sign if the year needs one. -/
def yearText (year : Int) : String :=
  if 0 ≤ year ∧ year ≤ 9999 then padded 4 year.toNat
  else (if year < 0 then "-" else "+") ++ padded 4 year.natAbs

def fractionText (nanos : Nat) : String :=
  if nanos = 0 then ""
  else if nanos % 1000000 = 0 then "." ++ padded 3 (nanos / 1000000)
  else if nanos % 1000 = 0 then "." ++ padded 6 (nanos / 1000)
  else "." ++ padded 9 nanos

end Stamp

def Instant.plainText (t : Instant) : String :=
  let leap := secondNanos ≤ t.nanos
  let second := t.second % 60 + (if leap then 1 else 0)
  let nanos := if leap then t.nanos - secondNanos else t.nanos
  Stamp.yearText t.date.year ++ "-" ++ Text.padded 2 t.date.month ++ "-" ++
    Text.padded 2 t.date.day ++ "T" ++ Text.padded 2 (t.second / 3600) ++ ":" ++
    Text.padded 2 (t.second / 60 % 60) ++ ":" ++ Text.padded 2 second ++
    Stamp.fractionText nanos

def Instant.text (t : Instant) : String :=
  t.plainText ++ "Z"

def Instant.offsetText (t : Instant) : String :=
  t.plainText ++ "+00:00"

def Instant.ofText (s : String) : Except StampFault Instant :=
  Stamp.read s.toList

end Time
end ServerFleet
