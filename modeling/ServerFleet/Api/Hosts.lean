import ServerFleet.Api.Reply

/-!
# Hosts over HTTP

A host registers with the address of its servers and the base address of its
agent, which has to be an HTTP address and loses the slashes at its end.
-/

namespace ServerFleet
namespace Api

/-- Lists the hosts in the order of their first registration. -/
def listHosts (c : Controller) : Attempt Http.Response :=
  .ok (.json 200 (listJson Host.toJson c.hosts))

def HostBody.host (body : HostBody) (fresh : HostId) : Except Problem Host :=
  if Text.isBlankText body.address then
    .error (Problem.badRequest "invalid_host" "address cannot be empty")
  else if !("http://".isPrefixOf body.endpoint || "https://".isPrefixOf body.endpoint) then
    .error (Problem.badRequest "invalid_host" "endpoint must be an http(s) URL")
  else
    .ok {
      id := body.id.getD fresh
      address := Text.trim body.address
      endpoint := Text.dropBack '/' body.endpoint }

def attachHost (fresh : HostId) (r : Http.Request) : Attempt Order := do
  let body ← decodeBody HostBody.decode r
  match body.host fresh with
  | .ok host => return .attach host
  | .error p => .error p.response

def hostOutcome : Outcome → Http.Response
  | .attached h report =>
      .json 200 (.object [
        ("id", h.id.toJson),
        ("address", .string h.address),
        ("endpoint", .string h.endpoint),
        ("reattached", listJson Id.toJson report.reattached),
        ("purged", listJson Id.toJson report.purged)])
  | .server _ => .empty 500

end Api
end ServerFleet
