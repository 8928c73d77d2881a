import ServerFleet.Control.Error
import ServerFleet.Http.Message
import ServerFleet.Id.Basic

/-!
# Problem documents

Errors are answered with a document that tells people and programs what went wrong
and whether it is worth trying again.
-/

namespace ServerFleet
namespace Api

structure Problem where
  status : Nat
  code : String
  detail : String
  requestId : Option String
  retryable : Bool
deriving DecidableEq, Repr

def statusTitle (status : Nat) : String :=
  if status = 400 then "Bad Request"
  else if status = 401 then "Unauthorized"
  else if status = 404 then "Not Found"
  else if status = 409 then "Conflict"
  else if status = 500 then "Internal Server Error"
  else "Unknown Error"

namespace Problem

def make (status : Nat) (code detail : String) : Problem :=
  ⟨status, code, detail, none, false⟩

def badRequest : String → String → Problem := make 400
def unauthorized : String → String → Problem := make 401
def notFound : String → String → Problem := make 404
def conflict : String → String → Problem := make 409
def internal : String → String → Problem := make 500

def again (p : Problem) : Problem :=
  { p with retryable := true }

def withRequest (p : Problem) (id : String) : Problem :=
  { p with requestId := some id }

def codeOf : ControlError → String
  | .groupNotFound _ => "group_not_found"
  | .serverNotFound _ => "server_not_found"
  | .numberNotFound _ _ => "server_not_found"
  | .hostNotFound _ => "host_not_found"
  | .noHost => "no_host_available"
  | .launchInProgress _ => "launch_in_progress"
  | .superseded _ => "server_superseded"
  | .agent _ => "host_agent_error"
  | .storage _ => "storage_error"
  | .task _ => "internal_error"

def ofControl (e : ControlError) : Problem :=
  match e with
  | .launchInProgress _ => (conflict (codeOf e) e.message).again
  | _ =>
      match e.kind with
      | .notFound => notFound (codeOf e) e.message
      | .failure => (internal (codeOf e) e.message).again

def ofStore (e : StoreError) : Problem :=
  internal "storage_error" e.message

def toJson (p : Problem) : Json.Value :=
  let request := match p.requestId with
    | some id => [("request_id", Json.Value.string id)]
    | none => []
  .object ([
    ("type", .string ("https://fleet-ctl.dev/problems/" ++ p.code)),
    ("title", .string (statusTitle p.status)),
    ("status", .nat p.status),
    ("detail", .string p.detail),
    ("code", .string p.code)] ++ request ++ [("retryable", .bool p.retryable)])

def response (p : Problem) : Http.Response :=
  ⟨p.status, some "application/problem+json", some p.toJson⟩

end Problem
end Api
end ServerFleet
