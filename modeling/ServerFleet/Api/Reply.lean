import ServerFleet.Api.Auth
import ServerFleet.Api.Body
import ServerFleet.Api.Route
import ServerFleet.Control.Job

/-!
# Replies

Every request is answered at once, or gives an order to the controller whose
outcome is then put into a response, or opens the stream of events.
-/

namespace ServerFleet
namespace Api

/-- What a request takes from outside: besides the time, unused identifiers. -/
structure Context extends Env where
  hostId : HostId
  requestId : RequestId

inductive Reply where
  | now (response : Http.Response)
  | later (order : Order) (finish : Outcome → Http.Response)
  | stream

abbrev Attempt (α : Type) := Except Http.Response α

def Attempt.response (r : Attempt Http.Response) : Http.Response :=
  match r with
  | .ok response => response
  | .error response => response

def Attempt.read (c : Controller) (r : Attempt Http.Response) : Controller × Reply :=
  (c, .now r.response)

def Attempt.write (c : Controller) (r : Attempt (Controller × Http.Response)) :
    Controller × Reply :=
  match r with
  | .ok (c, response) => (c, .now response)
  | .error response => (c, .now response)

def Attempt.order (c : Controller) (finish : Outcome → Http.Response) (r : Attempt Order) :
    Controller × Reply :=
  match r with
  | .ok order => (c, .later order finish)
  | .error response => (c, .now response)

def listJson (toJson : α → Json.Value) (xs : List α) : Json.Value :=
  .array (xs.map toJson)

def serverOutcome (status : Nat) : Outcome → Http.Response
  | .server (.ok s) => .json status s.toJson
  | .server (.error e) => (Problem.ofControl e).response
  | .attached _ _ => .empty 500

def stored (r : Except StoreError α) : Attempt α :=
  r.mapError fun e => (Problem.ofStore e).response

/-!
# Parts of requests
-/

/-- An open part of a path, decoded; a part that is not text is rejected. -/
def pathText (raw : String) : Attempt String :=
  match Text.percentDecode? raw with
  | some s => .ok s
  | none => .error (.plain 400)

def pathNumber (raw : String) : Attempt Nat := do
  let s ← pathText raw
  match Text.readBounded UInt32.size s.toList with
  | .ok n => .ok n
  | .error _ => .error (.plain 400)

def typeFilter (query : String) : Attempt (Option String) :=
  match Http.queryField? "type" query with
  | some found => .ok found
  | none => .error (.plain 400)

def serverIdOf (s : String) : Attempt ServerId :=
  match Id.ofText s with
  | .ok id => .ok id
  | .error e =>
      .error (Problem.badRequest "invalid_server_id" (s ++ ": " ++ e.message)).response

end Api
end ServerFleet
