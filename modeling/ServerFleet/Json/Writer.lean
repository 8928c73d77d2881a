import ServerFleet.Json.Quoted

/-!
# Writing JSON

The compact text of a value: no blanks, members in their order.
-/

namespace ServerFleet
namespace Json
namespace Value

mutual

def chars : Value → List Char
  | .null => ['n', 'u', 'l', 'l']
  | .bool true => ['t', 'r', 'u', 'e']
  | .bool false => ['f', 'a', 'l', 's', 'e']
  | .number n => n.text
  | .string s => Quoted.text s
  | .array [] => ['[', ']']
  | .array (v :: rest) => '[' :: (chars v ++ itemChars rest)
  | .object [] => ['\x7b', '\x7d']
  | .object (m :: rest) =>
      '\x7b' :: (Quoted.text m.1 ++ ':' :: (chars m.2 ++ memberChars rest))

def itemChars : List Value → List Char
  | [] => [']']
  | v :: rest => ',' :: (chars v ++ itemChars rest)

def memberChars : List (String × Value) → List Char
  | [] => ['\x7d']
  | m :: rest => ',' :: (Quoted.text m.1 ++ ':' :: (chars m.2 ++ memberChars rest))

end

def text (v : Value) : String :=
  String.ofList v.chars

end Value
end Json
end ServerFleet
