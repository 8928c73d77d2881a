import ServerFleet.Json.Reading

/-!
# Numbers in JSON text

A number is an optional minus sign, digits without a leading zero, an optional
fraction and an optional exponent.  Its digits are gathered into 64 bits; digits
that no longer fit are dropped, those before the point raising the exponent.
-/

namespace ServerFleet
namespace Json
namespace Numeral

def wordBound : Nat := UInt64.size

/-- Gathers digits as long as the value fits, and gives back the digits that are left. -/
def gather : Nat → List Char → Nat × List Char
  | n, [] => (n, [])
  | n, c :: rest =>
      let next := n * 10 + (Text.digitValue? c).getD 0
      if next < wordBound then gather next rest else (n, c :: rest)

structure Parts where
  negative : Bool
  whole : List Char
  fraction : Option (List Char)
  exponent : Option Int

/-- The value of a number; too large a double is malformed. -/
def Parts.value (p : Parts) : Except Fault Numeral :=
  let (significand, left) := gather 0 p.whole
  let real (n : Nat) (e : Int) : Except Fault Numeral :=
    match Number.Binary64.ofDecimal? p.negative n e with
    | some x => .ok (.real x)
    | none => .error .malformed
  match p.fraction, p.exponent with
  | none, none =>
      if !left.isEmpty then real significand left.length
      else if !p.negative then .ok (.natural significand)
      else if 0 < significand ∧ significand ≤ wordBound / 2 then .ok (.negative significand)
      else real significand 0
  | fraction, exponent =>
      let digits := fraction.getD []
      let (n, dropped) := gather significand digits
      let kept : Int := (digits.length : Int) - dropped.length
      real n ((left.length : Int) - kept + exponent.getD 0)

/-- Why no digit stands where one is due: reading blames an early end, passing over never does. -/
def digitDue (s : List Char) : Scan α :=
  ⟨.error (if s.isEmpty then .truncated else .malformed), some .malformed⟩

def fraction (s : List Char) : Except (Scan α) (Option (List Char) × List Char) :=
  match s with
  | '.' :: rest =>
      let (digits, after) := Text.spanDigits rest
      if digits.isEmpty then .error (digitDue rest) else .ok (some digits, after)
  | _ => .ok (none, s)

def exponentDigits (negative : Bool) (s : List Char) :
    Except (Scan α) (Option Int × List Char) :=
  let (digits, after) := Text.spanDigits s
  if digits.isEmpty then .error (digitDue s)
  else
    let n : Int := Text.digitsValue digits
    .ok (some (if negative then -n else n), after)

def exponent (s : List Char) : Except (Scan α) (Option Int × List Char) :=
  match s with
  | [] => .ok (none, [])
  | c :: rest =>
      if c = 'e' ∨ c = 'E' then
        match rest with
        | '+' :: rest => exponentDigits false rest
        | '-' :: rest => exponentDigits true rest
        | rest => exponentDigits false rest
      else .ok (none, s)

def whole (s : List Char) : Except (Scan α) (List Char × List Char) :=
  let (digits, after) := Text.spanDigits s
  match digits with
  | [] => .error (digitDue s)
  | '0' :: _ :: _ => .error (.fault .malformed)
  | _ => .ok (digits, after)

def parts (s : List Char) : Except (Scan α) (Parts × List Char) := do
  let (minus, s) := match s with
    | '-' :: rest => (true, rest)
    | s => (false, s)
  let (digits, s) ← whole s
  let (decimals, s) ← fraction s
  let (power, s) ← exponent s
  return (⟨minus, digits, decimals, power⟩, s)

def scan (s : List Char) : Scan Numeral × List Char :=
  match parts s with
  | .ok (p, rest) => (⟨p.value, none⟩, rest)
  | .error scan => (scan, [])

end Numeral
end Json
end ServerFleet
