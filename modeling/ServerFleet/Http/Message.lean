import ServerFleet.Json.Value
import ServerFleet.Text.Blank

/-!
# HTTP messages

Requests and responses, as far as the interface of the controller looks at them.
-/

namespace ServerFleet
namespace Http

structure Request where
  method : String
  target : String
  headers : List (String × String)
  body : String
deriving DecidableEq, Repr

def sameName (a b : String) : Bool :=
  Text.upperAscii a == Text.upperAscii b

def Request.header? (r : Request) (name : String) : Option String :=
  (r.headers.find? fun h => sameName h.1 name).map Prod.snd

def isHeaderText (s : String) : Bool :=
  s.toList.all fun c => c == '\t' || (0x20 ≤ c.toNat && c.toNat < 0x7f)

structure Response where
  status : Nat
  contentType : Option String
  body : Option Json.Value

namespace Response

def empty (status : Nat) : Response :=
  ⟨status, none, none⟩

def json (status : Nat) (v : Json.Value) : Response :=
  ⟨status, some "application/json", some v⟩

def plain (status : Nat) : Response :=
  ⟨status, some "text/plain; charset=utf-8", none⟩

def eventStream : Response :=
  ⟨200, some "text/event-stream", none⟩

def withoutBody (r : Response) : Response :=
  { r with body := none }

end Response
end Http
end ServerFleet
