import ServerFleet.Event.Codec
import ServerFleet.Json.Writer
import ServerFleet.Text.Split

/-!
# Server-sent events

The text that carries envelopes to a client: one message per envelope, with a line
each for the name, the number and the data, ended by an empty line.
-/

namespace ServerFleet
namespace Stream

structure Message where
  event : String
  id : String
  data : String
deriving DecidableEq, Repr

def Message.ofEnvelope (e : Envelope) : Message where
  event := e.typeName
  id := e.id.text
  data := e.toJson.text

def Message.text (m : Message) : String :=
  "event: " ++ m.event ++ "\nid: " ++ m.id ++ "\ndata: " ++ m.data ++ "\n\n"

def text (envelopes : List Envelope) : String :=
  String.join (envelopes.map fun e => (Message.ofEnvelope e).text)

/-!
# Reading a stream
-/

/-- The lines of a text, which end in a line feed, a carriage return or both. -/
def lines : List Char → List (List Char)
  | [] => []
  | '\r' :: '\n' :: rest => [] :: lines rest
  | '\r' :: rest => [] :: lines rest
  | '\n' :: rest => [] :: lines rest
  | c :: rest =>
      match lines rest with
      | [] => [[c]]
      | line :: more => (c :: line) :: more

/-- The name and value of a line; one blank behind the colon does not count. -/
def field (line : List Char) : String × String :=
  let name := line.takeWhile (· != ':')
  let value := match line.drop (name.length + 1) with
    | ' ' :: rest => rest
    | rest => rest
  (String.ofList name, String.ofList value)

/-- A message under way: name, number and the lines of its data, last one first. -/
structure Pending where
  event : String
  id : String
  data : List String

def Pending.add (p : Pending) (name value : String) : Pending :=
  if name = "event" then { p with event := value }
  else if name = "id" then { p with id := value }
  else if name = "data" then { p with data := value :: p.data }
  else p

/-- The messages of some lines; one that has no data or no empty line behind it is dropped. -/
def messages (pending : Pending) : List (List Char) → List Message
  | [] => []
  | [] :: rest =>
      let more := messages ⟨"", pending.id, []⟩ rest
      if pending.data.isEmpty then more
      else ⟨pending.event, pending.id, "\n".intercalate pending.data.reverse⟩ :: more
  | line :: rest =>
      let (name, value) := field line
      messages (pending.add name value) rest

def read (text : String) : List Message :=
  messages ⟨"", "", []⟩ (lines text.toList)

end Stream
end ServerFleet
