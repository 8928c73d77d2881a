import ServerFleet.Api.Handler
import ServerFleet.Event.Stream
import ServerFleet.Simulation.Run

/-!
# The surface of a run

Requests over HTTP, subscribers and streams of events.
-/

namespace ServerFleet
namespace Simulation
namespace World

/-!
# Subscribers
-/

inductive Heard where
  | delivery (d : Feed.Delivery)
  | closed

def newListener? (w : World) : Option Listener :=
  w.controllers[w.current]?.map fun c => ⟨w.current, c.feed.subscribe⟩

def subscribe (w : World) : World × Nat :=
  match w.newListener? with
  | some l => ({ w with listeners := w.listeners.push l }, w.listeners.size)
  | none => (w, w.listeners.size)

def isClosed (w : World) (owner : Nat) : Bool :=
  owner != w.current && !w.tasks.any fun t => t.owner == owner

def hear (w : World) (l : Listener) (limit : Nat) : List Heard × Listener :=
  match w.controllers[l.owner]? with
  | none => ([], l)
  | some c =>
      let (deliveries, cursor) := c.feed.drain limit l.cursor
      let heard := deliveries.map Heard.delivery
      let ended := deliveries.length < limit && w.isClosed l.owner
      (if ended then heard ++ [.closed] else heard, { l with cursor })

def receive (w : World) (number limit : Nat) : World × List Heard :=
  match w.listeners[number]? with
  | none => (w, [])
  | some l =>
      let (heard, l) := w.hear l limit
      ({ w with listeners := w.listeners.setIfInBounds number l }, heard)

/-- The envelopes among some deliveries; notices of missed events are passed over. -/
def envelopes : List Heard → List Envelope
  | [] => []
  | .delivery (.event e) :: rest => e :: envelopes rest
  | _ :: rest => envelopes rest

def readStream (w : World) (number : Nat) : World × List Stream.Message :=
  match w.streams[number]? with
  | none => (w, [])
  | some l =>
      let everything := match w.controllers[l.owner]? with
        | some c => c.feed.published.size + 1
        | none => 0
      let (heard, l) := w.hear l everything
      ({ w with streams := w.streams.setIfInBounds number l },
        Stream.read (Stream.text (envelopes heard)))

def publish (w : World) (topic : String) (event : FleetEvent) : Nat → World
  | 0 => w
  | count + 1 =>
      match w.controllers[w.current]? with
      | none => w
      | some c =>
          let c := { c with feed := c.feed.publish topic event w.clock }
          ({ w with controllers := w.controllers.setIfInBounds w.current c }).publish
            topic event count

/-!
# Requests
-/

def context (w : World) : Api.Context where
  toEnv := w.env
  hostId := mintedId w.minted
  requestId := mintedId w.minted

/-- Takes down a host that registers under an identifier that was made for it. -/
def register (w : World) (fresh : HostId) : Order → World
  | .attach host =>
      if host.id = fresh then { w with registered := w.registered ++ [host.id] } else w
  | _ => w

def request (w : World) (token : Option String) (r : Http.Request) : World × Http.Response :=
  let ctx := w.context
  match w.step w.current fun c _ => Api.handle token c ctx r with
  | none => (w, .empty 500)
  | some (w, .now response) => (w, response)
  | some (w, .later order finish) =>
      let (w, outcome) := (w.register ctx.hostId order).perform order
      match outcome with
      | some outcome => (w, finish outcome)
      | none => (w, .empty 500)
  | some (w, .stream) =>
      match w.newListener? with
      | some l => ({ w with streams := w.streams.push l }, .eventStream)
      | none => (w, .empty 500)

end World
end Simulation
end ServerFleet
