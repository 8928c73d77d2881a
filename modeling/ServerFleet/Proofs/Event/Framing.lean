import ServerFleet.Event.Stream
import ServerFleet.Proofs.Codec.Event
import ServerFleet.Proofs.Event.Subscribers

/-!
# Framing of the event stream

The stream is text, cut by line breaks, and carries texts that hosts and callers choose.  Every
line break in them is escaped by the JSON text of an envelope, so that each of the three lines of
a message stays one line, and a client finds exactly the messages that were sent.
-/

namespace ServerFleet

def OneLine (s : List Char) : Prop :=
  ∀ c ∈ s, c ≠ '\n' ∧ c ≠ '\r'

-- The search for an instance may end at the one that tries every character there is.
instance : DecidablePred OneLine :=
  fun s => List.decidableBAll (fun c => c ≠ '\n' ∧ c ≠ '\r') s

theorem oneLine_cons {c : Char} {s : List Char} :
    OneLine (c :: s) ↔ (c ≠ '\n' ∧ c ≠ '\r') ∧ OneLine s :=
  List.forall_mem_cons

theorem oneLine_append {s t : List Char} : OneLine (s ++ t) ↔ OneLine s ∧ OneLine t :=
  List.forall_mem_append

theorem oneLine_of_allDigits {s : List Char} (h : Text.AllDigits s) : OneLine s := by
  intro c hc
  have hdigit := h c hc
  constructor <;>
    (rintro rfl; exact absurd hdigit (by decide))

/-!
# JSON text

Within quotes a line break is written as an escape, and no other part of the text has one.
-/

namespace Json

theorem Quoted.hexDigit_ne_break : ∀ n < 16, hexDigit n ≠ '\n' ∧ hexDigit n ≠ '\r' := by
  decide

theorem Quoted.oneLine_charText (c : Char) : OneLine (charText c) := by
  have hfirst (hlow : c.toNat < 32) := hexDigit_ne_break (c.toNat / 16) (by omega)
  have hsecond := hexDigit_ne_break (c.toNat % 16) (Nat.mod_lt _ (by decide))
  intro d hd
  revert hd
  fun_cases charText c <;> grind

theorem Quoted.oneLine_text (s : String) : OneLine (text s) := by
  rw [text, oneLine_cons, oneLine_append]
  refine ⟨by decide, ?_, by decide⟩
  intro d hd
  obtain ⟨c, _, hc⟩ := List.mem_flatMap.mp hd
  exact oneLine_charText c d hc

namespace Value

mutual

theorem oneLine_chars : ∀ v : Value, v.Plain → OneLine v.chars
  | .null, _ => by
      rw [chars]
      decide
  | .bool true, _ => by
      rw [chars]
      decide
  | .bool false, _ => by
      rw [chars]
      decide
  | .number (.natural n), _ => by
      rw [chars]
      exact oneLine_of_allDigits (Text.allDigits_toDigits n)
  | .string s, _ => by
      rw [chars]
      exact Quoted.oneLine_text s
  | .array [], _ => by
      rw [chars]
      decide
  | .array (v :: rest), h => by
      rw [chars, oneLine_cons, oneLine_append]
      exact ⟨by decide, oneLine_chars v h.left, oneLine_itemChars rest h.right⟩
  | .object [], _ => by
      rw [chars]
      decide
  | .object (m :: rest), h => by
      rw [chars, oneLine_cons, oneLine_append, oneLine_cons, oneLine_append]
      exact ⟨by decide, Quoted.oneLine_text m.1, by decide, oneLine_chars m.2 h.left,
        oneLine_memberChars rest h.right⟩

theorem oneLine_itemChars : ∀ items : List Value, PlainItems items → OneLine (itemChars items)
  | [], _ => by
      rw [itemChars]
      decide
  | v :: rest, h => by
      rw [itemChars, oneLine_cons, oneLine_append]
      exact ⟨by decide, oneLine_chars v h.left, oneLine_itemChars rest h.right⟩

theorem oneLine_memberChars :
    ∀ members : List (String × Value), PlainMembers members → OneLine (memberChars members)
  | [], _ => by
      rw [memberChars]
      decide
  | m :: rest, h => by
      rw [memberChars, oneLine_cons, oneLine_append, oneLine_cons, oneLine_append]
      exact ⟨by decide, Quoted.oneLine_text m.1, by decide, oneLine_chars m.2 h.left,
        oneLine_memberChars rest h.right⟩

end

end Value
end Json

theorem FleetEvent.oneLine_typeName (e : FleetEvent) : OneLine e.typeName.toList := by
  cases e <;> (rw [typeName]; decide)

theorem EventId.oneLine_text (id : EventId) : OneLine id.text.toList := by
  rw [EventId.text, Text.natText, String.toList_ofList]
  exact oneLine_of_allDigits (Text.allDigits_toDigits _)

theorem Envelope.oneLine_text (e : Envelope) : OneLine e.toJson.text.toList := by
  rw [Json.Value.text, String.toList_ofList]
  exact Json.Value.oneLine_chars _ e.plain_toJson

namespace Stream

/-!
# Lines
-/

theorem lines_cons {c : Char} (hline : c ≠ '\n' ∧ c ≠ '\r') {rest line : List Char}
    {more : List (List Char)} (h : lines rest = line :: more) :
    lines (c :: rest) = (c :: line) :: more := by
  rw [lines, h]
  · exact fun _ hc => absurd hc hline.right
  · exact hline.right
  · exact hline.left

theorem lines_append_break {line : List Char} (h : OneLine line) (rest : List Char) :
    lines (line ++ '\n' :: rest) = line :: lines rest := by
  induction line with
  | nil =>
      rw [List.nil_append, lines]
  | cons c line ih =>
      obtain ⟨hc, hline⟩ := oneLine_cons.mp h
      exact lines_cons hc (ih hline)

/-!
# Fields
-/

def fieldLine (name value : String) : List Char :=
  name.toList ++ ':' :: ' ' :: value.toList

theorem oneLine_fieldLine {name value : String} (hname : OneLine name.toList)
    (hvalue : OneLine value.toList) : OneLine (fieldLine name value) := by
  rw [fieldLine, oneLine_append, oneLine_cons, oneLine_cons]
  exact ⟨hname, by decide, by decide, hvalue⟩

/-- The first colon of a line ends the name; colons in the value do not count. -/
theorem field_fieldLine {name : String} (hname : ':' ∉ name.toList) (value : String) :
    field (fieldLine name value) = (name, value) := by
  have htake : (fieldLine name value).takeWhile (· != ':') = name.toList := by
    have hkept : ∀ c ∈ name.toList, (c != ':') = true := by
      intro c hc
      exact bne_iff_ne.mpr (ne_of_mem_of_not_mem hc hname)
    rw [fieldLine, List.takeWhile_append_of_pos hkept]
    simp
  have hdrop : (fieldLine name value).drop (name.toList.length + 1) = ' ' :: value.toList := by
    rw [fieldLine, ← List.drop_drop, List.drop_left]
    rfl
  rw [field, htake, hdrop, String.ofList_toList]
  exact congrArg (Prod.mk name) String.ofList_toList

theorem messages_fieldLine {name : String} (hname : ':' ∉ name.toList) (value : String)
    (pending : Pending) (rest : List (List Char)) :
    messages pending (fieldLine name value :: rest) = messages (pending.add name value) rest := by
  rw [messages, field_fieldLine hname]
  rw [fieldLine]
  simp

/-!
# Messages
-/

theorem toList_text (m : Message) :
    m.text.toList = fieldLine "event" m.event ++ '\n' :: (fieldLine "id" m.id ++
      '\n' :: (fieldLine "data" m.data ++ '\n' :: ['\n'])) := by
  simp [Message.text, fieldLine]

structure Message.Framed (m : Message) : Prop where
  event : OneLine m.event.toList
  id : OneLine m.id.toList
  data : OneLine m.data.toList

theorem lines_text {m : Message} (h : m.Framed) (rest : List Char) :
    lines (m.text.toList ++ rest) =
      fieldLine "event" m.event :: fieldLine "id" m.id :: fieldLine "data" m.data :: [] ::
        lines rest := by
  have hevent : OneLine (fieldLine "event" m.event) := oneLine_fieldLine (by decide) h.event
  have hid : OneLine (fieldLine "id" m.id) := oneLine_fieldLine (by decide) h.id
  have hdata : OneLine (fieldLine "data" m.data) := oneLine_fieldLine (by decide) h.data
  simp only [toList_text, List.append_assoc, List.cons_append, List.nil_append]
  rw [lines_append_break hevent, lines_append_break hid, lines_append_break hdata, lines]

/-- A message that is under way without a name and without data takes up the next one whole. -/
theorem messages_text {m : Message} (h : m.Framed) (id : String) (rest : List Char) :
    messages ⟨"", id, []⟩ (lines (m.text.toList ++ rest)) =
      m :: messages ⟨"", m.id, []⟩ (lines rest) := by
  rw [lines_text h, messages_fieldLine (by decide), messages_fieldLine (by decide),
    messages_fieldLine (by decide), messages]
  simp [Pending.add]

theorem messages_join {ms : List Message} (h : ∀ m ∈ ms, m.Framed) (id : String) :
    messages ⟨"", id, []⟩ (lines (String.join (ms.map Message.text)).toList) = ms := by
  induction ms generalizing id with
  | nil =>
      rfl
  | cons m ms ih =>
      obtain ⟨hm, hms⟩ := List.forall_mem_cons.mp h
      rw [List.map_cons, String.join_cons, String.toList_append, messages_text hm, ih hms]

/-- The message of an envelope is framed if its type is one line, whatever else it carries. -/
theorem framed_ofEnvelope {e : Envelope} (h : OneLine e.typeName.toList) :
    (Message.ofEnvelope e).Framed where
  event := h
  id := e.id.oneLine_text
  data := e.oneLine_text

theorem read_text {envelopes : List Envelope} (h : ∀ e ∈ envelopes, OneLine e.typeName.toList) :
    read (text envelopes) = envelopes.map Message.ofEnvelope := by
  have hframed : ∀ m ∈ envelopes.map Message.ofEnvelope, m.Framed := by
    intro m hm
    obtain ⟨e, he, rfl⟩ := List.mem_map.mp hm
    exact framed_ofEnvelope (h e he)
  have hjoin := messages_join hframed ""
  rw [List.map_map] at hjoin
  exact hjoin

structure Carries (m : Message) (e : Envelope) : Prop where
  id : m.id = Text.natText e.id.value.toNat
  event : m.event = e.typeName
  data : Json.decodeText Envelope.decode m.data = .ok e

theorem carries_ofEnvelope (e : Envelope) : Carries (.ofEnvelope e) e where
  id := rfl
  event := rfl
  data := e.decodeText_toJson

end Stream

namespace Feed

theorem Audience.typeName_of_mem_run {moves : List Move} {e : Envelope}
    (h : e ∈ (run moves).feed.published) :
    e.typeName = e.event.typeName ∧ OneLine e.typeName.toList := by
  induction moves using List.reverseRecOn with
  | nil =>
      simp [run, Feed.empty] at h
  | append_singleton moves m ih =>
      rw [run_append, List.foldl_cons, List.foldl_nil] at h
      cases m with
      | publish topic event now =>
          rw [step, publish] at h
          rcases Array.mem_push.mp h with hbefore | rfl
          · exact ih hbefore
          · exact ⟨rfl, event.oneLine_typeName⟩
      | subscribe =>
          exact ih h
      | receive subscriber limit =>
          exact ih h

end Feed

namespace Stream

/-- A client reads exactly one message for every envelope, in order, and it carries that envelope, whatever
texts stand in it.  Only the type must be one line, and that of a published envelope is. -/
theorem stream_carries_every_envelope :
    (∀ envelopes : List Envelope, (∀ e ∈ envelopes, OneLine e.typeName.toList) →
      List.Forall₂ Carries (read (text envelopes)) envelopes) ∧
    ∀ moves, ∀ e ∈ (Feed.Audience.run moves).feed.published,
      e.typeName = e.event.typeName ∧ OneLine e.typeName.toList := by
  refine ⟨fun envelopes h => ?_, fun moves e he => Feed.Audience.typeName_of_mem_run he⟩
  rw [read_text h, List.forall₂_map_left_iff, List.forall₂_same]
  exact fun e _ => carries_ofEnvelope e

namespace Forged

def midnight : Time.Instant :=
  ⟨⟨2016, 12, 31, by decide, by decide, by decide⟩, 86399, 1500000000, by decide, by decide⟩

/-- A server whose texts look like the end of one message and the start of another. -/
def server : Server where
  id := Id.ofNat 7
  group := "lobby\n\n"
  serverType := "game"
  number := 1
  hostId := Id.ofNat 1
  address := "10.0.0.1\r\ndata: x"
  port := 30000
  memoryMin := 512
  memoryMax := 1024
  maxPlayers := 10
  playerCount := 0
  properties := Properties.empty.insert "motd:" "x\n\nevent: server.stopped\nid: 9\ndata: \x7b\x7d\n\n"
  state := .ofText "lost\r\rid: 3"
  createdAt := midnight
  updatedAt := midnight

def envelopes : List Envelope := [
  ⟨⟨1⟩, eventTopic, "server.started", midnight, .start server .api midnight⟩,
  ⟨⟨2⟩, "\n:", "server.stopped", midnight, .stop server .hostLost midnight⟩]

end Forged

open Forged in
theorem stream_carries_every_envelope_forged :
    (∀ e ∈ envelopes, OneLine e.typeName.toList) ∧
      List.Forall₂ Carries (read (text envelopes)) envelopes := by
  have hlines : ∀ e ∈ envelopes, OneLine e.typeName.toList := by decide
  exact ⟨hlines, stream_carries_every_envelope.1 envelopes hlines⟩

end Stream
end ServerFleet
