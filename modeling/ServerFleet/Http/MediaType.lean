import ServerFleet.Text.Split

/-!
# Media types

Whether a body is said to be JSON: the type is `application`, the subtype or its
suffix is `json`, and the parameters behind them are well formed.
-/

namespace ServerFleet
namespace Http

def isToken (c : Char) : Bool :=
  c.isAlphanum || "!#$%&'*+-.^_`|~".toList.contains c

def isQuotedText (c : Char) : Bool :=
  0x20 ≤ c.toNat && c != '\x7f'

/-- What follows a quoted value, behind the quote that opens it.  A value has at least one character,
so that a quote in its first place belongs to it. -/
def dropQuoted? : List Char → Option (List Char)
  | [] => none
  | first :: s =>
      if isQuotedText first then
        match s.dropWhile fun c => isQuotedText c && c != '"' with
        | '"' :: rest => some rest
        | _ => none
      else none

/-- What follows a quoted value and the blanks behind it, if that is the end or a further parameter. -/
def afterQuoted? (s : List Char) : Option (List Char) :=
  match s.dropWhile (· == ' ') with
  | [] => some []
  | ';' :: rest => some rest
  | _ => none

/-- Whether some parameters are well formed; `fuel` bounds their number. -/
def parametersValid : Nat → List Char → Bool
  | 0, _ => true
  | fuel + 1, s =>
      let s := s.dropWhile (· == ' ')
      if s.isEmpty then true
      else
        let name := s.takeWhile isToken
        match s.drop name.length with
        | '=' :: '"' :: rest =>
            match (dropQuoted? rest).bind afterQuoted? with
            | some rest => !name.isEmpty && parametersValid fuel rest
            | none => false
        | '=' :: rest =>
            let value := rest.takeWhile isToken
            match rest.drop value.length with
            | [] => !name.isEmpty
            | ';' :: rest => !name.isEmpty && !value.isEmpty && parametersValid fuel rest
            | _ => false
        | _ => false

/-- A subtype and its suffix behind the last plus sign, which must not come first. -/
def subtypeParts (subtype : List Char) : List Char × Option (List Char) :=
  match Text.splitLast? '+' subtype with
  | some (front, back) => if front.isEmpty then (subtype, none) else (front, some back)
  | none => (subtype, none)

def spellsJson (s : List Char) : Bool :=
  s.map Char.toLower == ['j', 's', 'o', 'n']

def isJsonType (s : String) : Bool :=
  let s := s.toList
  let type := s.takeWhile isToken
  match s.drop type.length with
  | '/' :: rest =>
      let subtype := rest.takeWhile isToken
      let (name, suffix) := subtypeParts subtype
      let parameters := match rest.drop subtype.length with
        | [] => true
        | ';' :: more => parametersValid (more.length + 1) more
        | _ => false
      type.map Char.toLower == "application".toList && parameters &&
        (spellsJson name || suffix.any spellsJson)
  | _ => false

end Http
end ServerFleet
