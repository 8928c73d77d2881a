import ServerFleet.Event.Basic

/-!
# The event feed

Events are numbered from one in the order of their publication.  Every subscriber
reads them at its own pace; one that falls more than a fixed number of events
behind is told how many it has missed and goes on with the oldest event kept.
-/

namespace ServerFleet

@[irreducible] def feedCapacity : Nat := 1024

structure Feed where
  published : Array Envelope

namespace Feed

def empty : Feed :=
  ⟨#[]⟩

def publish (feed : Feed) (topic : String) (event : FleetEvent) (now : Time.Instant) : Feed :=
  let id := ⟨UInt64.ofNat (feed.published.size + 1)⟩
  ⟨feed.published.push ⟨id, topic, event.typeName, now, event⟩⟩

/-- A subscriber's place: the number of events before the next one it reads. -/
structure Cursor where
  next : Nat
deriving DecidableEq, Repr

def subscribe (feed : Feed) : Cursor :=
  ⟨feed.published.size⟩

/-- What a subscriber gets: an event, or notice of events it has missed. -/
inductive Delivery where
  | event (envelope : Envelope)
  | lagged (missed : Nat)

/-- The next delivery to a subscriber and its place afterwards, if there is anything for it. -/
def receive? (feed : Feed) (cursor : Cursor) : Option (Delivery × Cursor) :=
  let oldest := feed.published.size - feedCapacity
  if cursor.next < oldest then some (.lagged (oldest - cursor.next), ⟨oldest⟩)
  else
    match feed.published[cursor.next]? with
    | none => none
    | some envelope => some (.event envelope, ⟨cursor.next + 1⟩)

def drain (feed : Feed) : Nat → Cursor → List Delivery × Cursor
  | 0, cursor => ([], cursor)
  | limit + 1, cursor =>
      match feed.receive? cursor with
      | none => ([], cursor)
      | some (delivery, cursor) =>
          let (more, cursor) := feed.drain limit cursor
          (delivery :: more, cursor)

end Feed
end ServerFleet
