import ServerFleet.Control.Sweep

/-!
# Overriding a record

The state or a property of a server can be overridden without asking its host.
-/

namespace ServerFleet
namespace Controller

def update (c : Controller) (env : Env) (id : ServerId) (change : Server → Server) :
    Controller × ServerResult :=
  match c.store.get? id with
  | none => (c, .error (.serverNotFound id))
  | some before =>
      let after := { change before with updatedAt := env.now }
      match c.store.replace after with
      | .error e => (c, .error (.storage e))
      | .ok none => (c, .error (.serverNotFound id))
      | .ok (some store) =>
          ({ c with store }.publish env (.update before after env.now), .ok after)

def setState (c : Controller) (env : Env) (id : ServerId) (state : ServerState) :
    Controller × ServerResult :=
  c.update env id fun s => { s with state }

def setProperty (c : Controller) (env : Env) (id : ServerId) (key value : String) :
    Controller × ServerResult :=
  c.update env id fun s => { s with properties := s.properties.insert key value }

end Controller
end ServerFleet
