import ServerFleet.Event.Codec
import ServerFleet.Proofs.Codec.Record

/-!
# Reading back events

The members of an event are collected whole before they are decoded, which limits how
deep they may nest.  What a record of a server holds nests so little that an event reads
back, alone or in its envelope.
-/

namespace ServerFleet

open Json

namespace Json

/-!
# Depth
-/

namespace Value

mutual

def depth : Value → Nat
  | .null => 0
  | .bool _ => 0
  | .number _ => 0
  | .string _ => 0
  | .array items => itemsDepth items + 1
  | .object members => membersDepth members + 1

def itemsDepth : List Value → Nat
  | [] => 0
  | v :: rest => max (depth v) (itemsDepth rest)

def membersDepth : List (String × Value) → Nat
  | [] => 0
  | m :: rest => max (depth m.2) (membersDepth rest)

end

end Value

mutual

theorem collectFault_ofValue {depth : Nat} :
    ∀ v : Value, v.depth ≤ depth → collectFault depth (Reading.ofValue v) = none
  | .null, _ => by
      rw [Reading.ofValue, collectFault]
  | .bool _, _ => by
      rw [Reading.ofValue, collectFault]
  | .number n, _ => by
      rw [Reading.ofValue, collectFault]
      rfl
  | .string s, _ => by
      rw [Reading.ofValue, collectFault]
      rfl
  | .array items, h => by
      cases depth with
      | zero =>
          exact absurd h (Nat.not_succ_le_zero _)
      | succ depth =>
          rw [Reading.ofValue, collectFault,
            collectItems_ofItems items (Nat.le_of_succ_le_succ h)]
          rfl
  | .object members, h => by
      cases depth with
      | zero =>
          exact absurd h (Nat.not_succ_le_zero _)
      | succ depth =>
          rw [Reading.ofValue, collectFault,
            collectMembers_ofMembers members (Nat.le_of_succ_le_succ h)]
          rfl

theorem collectItems_ofItems {depth : Nat} :
    ∀ items : List Value, Value.itemsDepth items ≤ depth →
      collectItems depth (Reading.ofItems items) = none
  | [], _ => by
      rw [Reading.ofItems, collectItems]
  | v :: rest, h => by
      have hboth := Nat.max_le.mp h
      rw [Reading.ofItems, collectItems, collectFault_ofValue v hboth.left,
        collectItems_ofItems rest hboth.right]
      rfl

theorem collectMembers_ofMembers {depth : Nat} :
    ∀ members : List (String × Value), Value.membersDepth members ≤ depth →
      collectMembers depth (Reading.ofMembers members) = none
  | [], _ => by
      rw [Reading.ofMembers, collectMembers]
  | (key, v) :: rest, h => by
      have hboth := Nat.max_le.mp h
      rw [Reading.ofMembers, collectMembers, collectFault_ofValue v hboth.left,
        collectMembers_ofMembers rest hboth.right]
      rfl

end

end Json

theorem Properties.depth_toJson (p : Properties) : p.toJson.depth = 1 := by
  rw [toJson, Value.depth]
  induction p.entries with
  | nil =>
      rfl
  | cons e rest ih =>
      simpa [Value.membersDepth, Value.depth] using ih

theorem Server.depth_toJson (s : Server) : s.toJson.depth = 2 := by
  simp [toJson, Value.depth, Value.membersDepth, Id.toJson, ServerState.toJson, Value.nat,
    Properties.depth_toJson]

/-!
# Scalars of events
-/

theorem Cause.decode_toJson (source : Source) (c : Cause) :
    Cause.decode source (Reading.ofValue c.toJson) = .ok c := by
  cases c <;> cases source <;> rfl

theorem EventId.decode_toJson (source : Source) (id : EventId) :
    EventId.decode source (Reading.ofValue id.toJson) = .ok id := by
  rw [EventId.decode, EventId.toJson, Decode.word64_ofValue]
  rfl

/-!
# Events
-/

namespace FleetEvent

theorem members_ofMembers {depth : Nat} (source : Source) (tag : Option String)
    (ms : List (String × Value)) (hnames : ∀ m ∈ ms, m.1 ≠ "type")
    (hdepth : ∀ m ∈ ms, m.2.depth ≤ depth) :
    members depth source tag (Reading.ofMembers ms) = .ok (tag, Reading.ofMembers ms) := by
  induction ms with
  | nil =>
      rfl
  | cons m rest ih =>
      have hrest := ih (fun n hn => hnames n (List.mem_cons_of_mem m hn))
        (fun n hn => hdepth n (List.mem_cons_of_mem m hn))
      have hvalue := collectFault_ofValue m.2 (hdepth m List.mem_cons_self)
      simp only [Reading.ofMembers, members, Scan.ofValue, hnames m List.mem_cons_self, if_false,
        hvalue, hrest]
      rfl

theorem decodeWithin_ofMembers {outer : Nat} {source : Source} {tag : String}
    (htag : tags.contains tag = true) {ms : List (String × Value)}
    (hnames : ∀ m ∈ ms, m.1 ≠ "type") (hdepth : ∀ m ∈ ms, m.2.depth ≤ deepest - outer - 1) :
    decodeWithin outer source (Reading.ofValue (.object (("type", .string tag) :: ms))) =
      ofTag tag .collected (Reading.ofValue (.object ms)) := by
  have hkind : decodeTag source (Reading.ofValue (.string tag)) = .ok tag := by
    simp only [decodeTag, Decode.stringAs, Reading.ofValue, Scan.ofValue, Decode.choiceName, htag,
      if_true]
  have hmembers : members (deepest - outer - 1) source none
      (Reading.ofMembers (("type", .string tag) :: ms)) = .ok (some tag, Reading.ofMembers ms) := by
    have hothers := members_ofMembers source (some tag) ms hnames hdepth
    simp only [Reading.ofMembers, members, Scan.ofValue, if_true, Option.isSome_none, hkind, hothers]
    rfl
  simp only [decodeWithin, Reading.ofValue, hmembers]
  rfl

open Json.Fields in
theorem record_ofCause (make : Server → Cause → Time.Instant → FleetEvent) (name : String)
    (source : Source) (s : Server) (c : Cause) (t : Time.Instant) :
    record name (make <$> required "server" Server.decode
        <*> required "cause" Cause.decode
        <*> required "timestamp" Server.decodeInstant) source
      (Reading.ofValue (.object [("server", s.toJson), ("cause", c.toJson),
        ("timestamp", .string t.text)])) = .ok (make s c t) := by
  apply record_ofValue
  case haccepts =>
    simp [Accepts, Functor.map, Seq.seq, required, errorOf, Server.decode_toJson,
      Cause.decode_toJson, Server.decodeInstant_text]
  case hnames =>
    simp
  case hbuild =>
    simp [Functor.map, Seq.seq, required, find?, readings, Except.map, Server.decode_toJson,
      Cause.decode_toJson, Server.decodeInstant_text]

open Json.Fields in
theorem record_ofUpdate (name : String) (source : Source) (before after : Server)
    (t : Time.Instant) :
    record name (FleetEvent.update <$> required "before" Server.decode
        <*> required "after" Server.decode
        <*> required "timestamp" Server.decodeInstant) source
      (Reading.ofValue (.object [("before", before.toJson), ("after", after.toJson),
        ("timestamp", .string t.text)])) = .ok (.update before after t) := by
  apply record_ofValue
  case haccepts =>
    simp [Accepts, Functor.map, Seq.seq, required, errorOf, Server.decode_toJson,
      Server.decodeInstant_text]
  case hnames =>
    simp
  case hbuild =>
    simp [Functor.map, Seq.seq, required, find?, readings, Except.map, Server.decode_toJson,
      Server.decodeInstant_text]

def body : FleetEvent → List (String × Value)
  | .start server cause time =>
      [("server", server.toJson), ("cause", cause.toJson), ("timestamp", .string time.text)]
  | .stop server cause time =>
      [("server", server.toJson), ("cause", cause.toJson), ("timestamp", .string time.text)]
  | .update before after time =>
      [("before", before.toJson), ("after", after.toJson), ("timestamp", .string time.text)]

theorem toJson_eq_object (e : FleetEvent) : e.toJson = .object (("type", .string e.tag) :: e.body) := by
  cases e <;> rfl

theorem contains_tag (e : FleetEvent) : tags.contains e.tag = true := by
  cases e <;> rfl

theorem name_ne_type (e : FleetEvent) : ∀ m ∈ e.body, m.1 ≠ "type" := by
  cases e <;> simp [body]

theorem depth_body (e : FleetEvent) : ∀ m ∈ e.body, m.2.depth ≤ 2 := by
  cases e <;> simp [body, Server.depth_toJson, Cause.toJson, Value.depth]

theorem ofTag_body (source : Source) (e : FleetEvent) :
    ofTag e.tag source (Reading.ofValue (.object e.body)) = .ok e := by
  cases e with
  | start s c t =>
      rw [tag, ofTag, if_pos rfl]
      exact record_ofCause FleetEvent.start "StartEvent" source s c t
  | stop s c t =>
      rw [tag, ofTag, if_neg (by decide), if_pos rfl]
      exact record_ofCause FleetEvent.stop "StopEvent" source s c t
  | update before after t =>
      rw [tag, ofTag, if_neg (by decide), if_neg (by decide)]
      exact record_ofUpdate "UpdateEvent" source before after t

/-- An event reads back wherever the record of a server may still stand within it. -/
theorem decodeWithin_toJson {outer : Nat} (houter : outer + 3 ≤ deepest) (source : Source)
    (e : FleetEvent) : decodeWithin outer source (Reading.ofValue e.toJson) = .ok e := by
  -- The event itself takes one level and the record of a server two.
  have hdepth : ∀ m ∈ e.body, m.2.depth ≤ deepest - outer - 1 := by
    intro m hm
    have hm := e.depth_body m hm
    omega
  rw [toJson_eq_object, decodeWithin_ofMembers e.contains_tag e.name_ne_type hdepth]
  exact e.ofTag_body .collected

theorem plain_toJson (e : FleetEvent) : e.toJson.Plain := by
  cases e <;>
    simp [toJson, Value.Plain, Value.PlainMembers, Cause.toJson, Server.plain_toJson]

theorem decodeText_toJson (e : FleetEvent) : decodeText decode e.toJson.text = .ok e := by
  rw [decodeText_text e.plain_toJson]
  exact e.decodeWithin_toJson (by decide) .text

end FleetEvent

/-!
# Envelopes
-/

namespace Envelope

def members (e : Envelope) : List (String × Value) := [
  ("event_id", e.id.toJson),
  ("topic", .string e.topic),
  ("event_type", .string e.typeName),
  ("published_at", .string e.publishedAt.text),
  ("event", e.event.toJson)]

theorem toJson_eq_object (e : Envelope) : e.toJson = .object e.members :=
  rfl

theorem nodup_members (e : Envelope) : (e.members.map Prod.fst).Nodup := by
  simp [members]

theorem decode_event (source : Source) (e : FleetEvent) :
    FleetEvent.decodeWithin 1 source (Reading.ofValue e.toJson) = .ok e :=
  e.decodeWithin_toJson (by decide) source

open Fields in
theorem accepts_members (source : Source) (e : Envelope) :
    ∀ m ∈ e.members, Accepts fields.fields source m := by
  simp [members, Accepts, fields, Functor.map, Seq.seq, required, errorOf, EventId.decode_toJson,
    Decode.string_ofValue, Server.decodeInstant_text, decode_event]

open Fields in
theorem build_members (source : Source) (e : Envelope) :
    fields.build source (readings e.members) = .ok e := by
  simp [fields, Functor.map, Seq.seq, required, find?, readings, members, Except.map,
    EventId.decode_toJson, Decode.string_ofValue, Server.decodeInstant_text, decode_event]

theorem decode_toJson (source : Source) (e : Envelope) :
    decode source (Reading.ofValue e.toJson) = .ok e := by
  rw [toJson_eq_object]
  exact Fields.record_ofValue "EventEnvelope" e.members (accepts_members source e)
    (nodup_members e) (build_members source e)

theorem plain_toJson (e : Envelope) : e.toJson.Plain := by
  have hword : e.id.value.toNat < Numeral.wordBound := e.id.value.toNat_lt
  simp [toJson, Value.Plain, Value.PlainMembers, EventId.toJson, Value.nat, hword,
    FleetEvent.plain_toJson]

theorem decodeText_toJson (e : Envelope) : decodeText decode e.toJson.text = .ok e := by
  rw [decodeText_text e.plain_toJson]
  exact e.decode_toJson .text

end Envelope

/-!
# All records
-/

/-- An encoding that loses nothing.  Every record reads back from its text, a text that decodes is brought
into a form that no further turn changes, and records with one text are one. -/
structure Lossless (decode : Decoder α) (toJson : α → Value) : Prop where
  readsBack : ∀ a, decodeText decode (toJson a).text = .ok a
  canonical : ∀ text a, decodeText decode text = .ok a →
    ∃ b, decodeText decode (toJson a).text = .ok b ∧ b = a ∧ (toJson b).text = (toJson a).text
  injective : ∀ a b, (toJson a).text = (toJson b).text → a = b

theorem lossless_of_readsBack {decode : Decoder α} {toJson : α → Value}
    (h : ∀ a, decodeText decode (toJson a).text = .ok a) : Lossless decode toJson where
  readsBack := h
  canonical := fun _ a _ => ⟨a, h a, rfl, rfl⟩
  injective := by
    intro a b htext
    have ha := h a
    rw [htext, h b] at ha
    cases ha
    rfl

/-- Records and events survive their encoding, and so does what the state of a server means. -/
theorem records_survive_encoding :
    Lossless Group.decode Group.toJson ∧ Lossless Server.decode Server.toJson ∧
      Lossless Host.decode Host.toJson ∧ Lossless FleetEvent.decode FleetEvent.toJson ∧
      Lossless Envelope.decode Envelope.toJson ∧
      (∀ text, ServerState.ofText (ServerState.ofText text).name = ServerState.ofText text) ∧
      ∀ s : Server, ∃ again, decodeText Server.decode s.toJson.text = .ok again ∧
        again.state = s.state ∧ again.state.isBusy = s.state.isBusy :=
  ⟨lossless_of_readsBack Group.decodeText_toJson, lossless_of_readsBack Server.decodeText_toJson,
    lossless_of_readsBack Host.decodeText_toJson, lossless_of_readsBack FleetEvent.decodeText_toJson,
    lossless_of_readsBack Envelope.decodeText_toJson, fun _ => ServerState.ofText_name _,
    fun s => ⟨s, s.decodeText_toJson, rfl, rfl⟩⟩

end ServerFleet
