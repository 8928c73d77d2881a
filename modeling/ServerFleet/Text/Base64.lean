/-!
# Base 64

Bytes as text: three bytes make four characters, and the end is filled up with
equals signs.
-/

namespace ServerFleet
namespace Text

def base64Alphabet : List Char :=
  "ABCDEFGHIJKLMNOPQRSTUVWXYZabcdefghijklmnopqrstuvwxyz0123456789+/".toList

def base64Char (n : Nat) : Char :=
  base64Alphabet.getD (n % 64) 'A'

def base64 : List UInt8 → List Char
  | a :: b :: c :: rest =>
      let n := (a.toNat * 256 + b.toNat) * 256 + c.toNat
      base64Char (n / 262144) :: base64Char (n / 4096) :: base64Char (n / 64) ::
        base64Char n :: base64 rest
  | [a, b] =>
      let n := (a.toNat * 256 + b.toNat) * 4
      [base64Char (n / 4096), base64Char (n / 64), base64Char n, '=']
  | [a] =>
      let n := a.toNat * 16
      [base64Char (n / 64), base64Char n, '=', '=']
  | [] => []

end Text
end ServerFleet
