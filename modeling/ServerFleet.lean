import ServerFleet.Settings
import ServerFleet.Agent.Client
import ServerFleet.Simulation.Surface
import ServerFleet.Proofs.Id.Order
import ServerFleet.Proofs.Id.Spellings
import ServerFleet.Proofs.Codec.Document
import ServerFleet.Proofs.Codec.Event
import ServerFleet.Proofs.Codec.Identifier
import ServerFleet.Proofs.Codec.Record
import ServerFleet.Proofs.Codec.Scalar
import ServerFleet.Proofs.Codec.Stamp
import ServerFleet.Proofs.Scaling.Demand
import ServerFleet.Proofs.Scaling.Ratio
import ServerFleet.Proofs.Store.Allocation
import ServerFleet.Proofs.Store.Catalogue
import ServerFleet.Proofs.Store.Groups
import ServerFleet.Proofs.Store.Refinement
import ServerFleet.Proofs.Event.Framing
import ServerFleet.Proofs.Event.Subscribers
import ServerFleet.Proofs.Fleet.HeldNumbers
import ServerFleet.Proofs.Fleet.Launches
import ServerFleet.Proofs.Fleet.Lives
import ServerFleet.Proofs.Fleet.Replay
import ServerFleet.Proofs.Fleet.Crashes
import ServerFleet.Proofs.Fleet.Overrides
import ServerFleet.Proofs.Fleet.Confinement
import ServerFleet.Proofs.Fleet.ForeignAnswers
import ServerFleet.Proofs.Fleet.Confirmations
import ServerFleet.Proofs.Fleet.Departures
import ServerFleet.Proofs.Fleet.Reattachment
import ServerFleet.Proofs.Fleet.Registrations
import ServerFleet.Proofs.Fleet.StopsByNumber
import ServerFleet.Proofs.Fleet.Callers
import ServerFleet.Proofs.Fleet.Balance
import ServerFleet.Proofs.Fleet.Ports
import ServerFleet.Proofs.Fleet.Caps
import ServerFleet.Proofs.Fleet.Fixpoint
import ServerFleet.Proofs.Fleet.PassAccounts
import ServerFleet.Proofs.Api.Access
import ServerFleet.Proofs.Api.Tokens
import ServerFleet.Proofs.Api.Catalogue
import ServerFleet.Proofs.Api.Requests
import ServerFleet.Proofs.Api.Endpoints
