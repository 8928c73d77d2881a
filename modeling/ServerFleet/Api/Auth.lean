import ServerFleet.Api.Problem

/-!
# Bearer tokens

Where a token is required, a request has to carry it in its first Authorization
header, behind the word `Bearer` and a blank.  Blanks around the header and around
the token do not count.
-/

namespace ServerFleet
namespace Api

/-- The text behind a lead, if a text starts with it. -/
def behind? : List Char → List Char → Option (List Char)
  | [], s => some s
  | _ :: _, [] => none
  | c :: lead, d :: s => if c = d then behind? lead s else none

def bearerToken (headers : Option String) : Except String String :=
  match headers with
  | none => .error "missing Authorization header"
  | some value =>
      if !Http.isHeaderText value then .error "Authorization header is not valid text"
      else
        match behind? "Bearer ".toList (Text.trim value).toList with
        | none => .error "Authorization must be a Bearer token"
        | some rest =>
            let token := Text.trim (String.ofList rest)
            if token.isEmpty then .error "Authorization Bearer token cannot be empty"
            else .ok token

def authorize (required : Option String) (requestId : RequestId) (r : Http.Request) :
    Except Problem Unit :=
  match required with
  | none => .ok ()
  | some expected =>
      match bearerToken (r.header? "Authorization") with
      | .error reason =>
          .error ((Problem.unauthorized "unauthorized" reason).withRequest requestId.text)
      | .ok token =>
          if token = expected then .ok ()
          else
            .error ((Problem.unauthorized "invalid_token"
              "bearer token is not valid").withRequest requestId.text)

end Api
end ServerFleet
