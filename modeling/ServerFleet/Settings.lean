import ServerFleet.Net.SocketAddress
import ServerFleet.Text.Base64
import ServerFleet.Time.Span

/-!
# Settings

What the controller takes from its environment, with a default for everything that
is not set.  Lengths of time are whole seconds and at least one.
-/

namespace ServerFleet

structure Settings where
  listen : Net.SocketAddress
  logLevel : String
  databasePath : String
  reconcileInterval : Nat
  agentTimeout : Nat
  apiToken : Option String
  forwardingSecret : String
deriving DecidableEq, Repr

inductive SettingsError where
  | listenAddress
  | notANumber (key text : String) (fault : Text.DigitsFault)
  | notPositive (key : String)
deriving DecidableEq, Repr

def SettingsError.message : SettingsError → String
  | .listenAddress => "invalid FLEET_LISTEN_ADDR: invalid socket address syntax"
  | .notANumber key text fault => "invalid " ++ key ++ ": " ++ text ++ ": " ++ fault.message
  | .notPositive key => key ++ " must be positive"

namespace Settings

def seconds (lookup : String → Option String) (key : String) (default : Nat) :
    Except SettingsError Nat :=
  let found : Except SettingsError Nat := match lookup key with
    | none => .ok default
    | some text => (Text.readBounded UInt64.size text.toList).mapError (.notANumber key text)
  match found with
  | .error e => .error e
  | .ok n => if n = 0 then .error (.notPositive key) else .ok n

def listenAddress (lookup : String → Option String) : Except SettingsError Net.SocketAddress :=
  match Net.SocketAddress.ofText? ((lookup "FLEET_LISTEN_ADDR").getD "127.0.0.1:8080") with
  | some a => .ok a
  | none => .error .listenAddress

def nonEmpty (lookup : String → Option String) (key : String) : Option String :=
  (lookup key).filter fun s => !s.isEmpty

def secretOf (random : List UInt8) : String :=
  String.ofList (Text.base64 random)

/-- The settings in an environment; random bytes make a forwarding secret if none is set. -/
def ofLookup (lookup : String → Option String) (random : List UInt8) :
    Except SettingsError Settings := do
  let listen ← listenAddress lookup
  let interval ← seconds lookup "FLEET_RECONCILE_INTERVAL_SECS" 5
  let timeout ← seconds lookup "FLEET_AGENT_TIMEOUT_SECS" 10
  return {
    listen
    logLevel := (lookup "FLEET_LOG_LEVEL").getD "info"
    databasePath := (lookup "FLEET_DATABASE_PATH").getD "fleet.db"
    reconcileInterval := interval
    agentTimeout := timeout
    apiToken := nonEmpty lookup "FLEET_API_TOKEN"
    forwardingSecret := (nonEmpty lookup "FLEET_FORWARDING_SECRET").getD (secretOf random) }

end Settings
end ServerFleet
