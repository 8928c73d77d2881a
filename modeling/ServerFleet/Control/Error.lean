import ServerFleet.Agent.Call
import ServerFleet.Store.Database

/-!
# Errors of the controller
-/

namespace ServerFleet

inductive ErrorKind where
  | notFound
  | failure
deriving DecidableEq, Repr

inductive ControlError where
  | groupNotFound (name : String)
  | serverNotFound (id : ServerId)
  | numberNotFound (group : String) (number : Nat)
  | hostNotFound (id : HostId)
  | noHost
  | launchInProgress (id : ServerId)
  | superseded (id : ServerId)
  | agent (error : AgentError)
  | storage (error : StoreError)
  | task (message : String)

namespace ControlError

def kind : ControlError → ErrorKind
  | .groupNotFound _ => .notFound
  | .serverNotFound _ => .notFound
  | .numberNotFound _ _ => .notFound
  | .hostNotFound _ => .notFound
  | .noHost => .notFound
  | .launchInProgress _ => .failure
  | .superseded _ => .failure
  | .agent _ => .failure
  | .storage _ => .failure
  | .task _ => .failure

def message : ControlError → String
  | .groupNotFound name => "group not found: " ++ name
  | .serverNotFound id => "server not found: " ++ id.text
  | .numberNotFound group number =>
      "server " ++ group ++ "-" ++ Text.natText number ++ " not found"
  | .hostNotFound id => "host not found: " ++ id.text
  | .noHost => "no host available for placement"
  | .launchInProgress id => "server " ++ id.text ++ " is still launching"
  | .superseded id => "server " ++ id.text ++ " was removed while its launch was in flight"
  | .agent error => "host agent call failed: " ++ error.message
  | .storage error => "storage error: " ++ error.message
  | .task message => "orchestration task failed: " ++ message

end ControlError
end ServerFleet
