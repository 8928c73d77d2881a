import ServerFleet.Text.Percent

/-!
# Request targets

The path and the query of a request.
-/

namespace ServerFleet
namespace Http

structure Target where
  segments : List String
  query : String
deriving DecidableEq, Repr

def isSchemeChar (c : Char) : Bool :=
  c.isAlphanum || c == '+' || c == '-' || c == '.'

/-- What follows the scheme and the authority of a target that names them. -/
def dropOrigin (s : List Char) : List Char :=
  match s.dropWhile isSchemeChar with
  | ':' :: '/' :: '/' :: rest => rest.dropWhile fun c => c != '/' && c != '?'
  | _ => s

/-- Takes a target apart; an origin in front and a fragment behind do not count. -/
def Target.ofText (s : String) : Target :=
  let s := dropOrigin (s.toList.takeWhile (· != '#'))
  let path := s.takeWhile (· != '?')
  { segments :=
      match path with
      | '/' :: rest => (Text.splitOn '/' rest).map String.ofList
      | _ => []
    query := String.ofList (s.drop (path.length + 1)) }

/-- The value of a field that a query holds at most once; `none` if it holds it more often. -/
def queryField? (name query : String) : Option (Option String) :=
  match (Text.formPairs query).filter fun p => p.1 == name with
  | [] => some none
  | [p] => some (some p.2)
  | _ => none

end Http
end ServerFleet
