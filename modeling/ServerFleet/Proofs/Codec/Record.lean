import ServerFleet.Model.Group
import ServerFleet.Model.Host
import ServerFleet.Model.Properties
import ServerFleet.Model.State
import ServerFleet.Proofs.Codec.Document
import ServerFleet.Proofs.Codec.Identifier
import ServerFleet.Proofs.Codec.Stamp
import ServerFleet.Model.Server

/-!
# Reading back records

The fields of a record are read one by one.  If the members of an object are the
fields of a record, each under its own name and each readable on its own, then the
record is put together from their values.
-/

namespace ServerFleet
namespace Json

/-!
# Scalars
-/

namespace Decode

theorem string_ofValue (source : Source) (s : String) :
    string source (Reading.ofValue (.string s)) = .ok s :=
  rfl

theorem natural_ofValue (source : Source) {bound n : Nat} (expected : String) (h : n < bound) :
    natural bound expected source (Reading.ofValue (.nat n)) = .ok n := by
  simp [natural, Value.nat, Reading.ofValue, Scan.ofValue, h]

theorem word16_ofValue (source : Source) (n : UInt16) :
    word16 source (Reading.ofValue (.nat n.toNat)) = .ok n := by
  rw [word16, natural_ofValue source "u16" n.toNat_lt]
  simp [Except.map]

theorem word32_ofValue (source : Source) (n : UInt32) :
    word32 source (Reading.ofValue (.nat n.toNat)) = .ok n := by
  rw [word32, natural_ofValue source "u32" n.toNat_lt]
  simp [Except.map]

theorem word64_ofValue (source : Source) (n : UInt64) :
    word64 source (Reading.ofValue (.nat n.toNat)) = .ok n := by
  rw [word64, natural_ofValue source "u64" n.toNat_lt]
  simp [Except.map]

theorem parsed_ofValue (source : Source) {expected s : String} {read : String → Except String α}
    {a : α} (h : read s = .ok a) :
    parsed expected read source (Reading.ofValue (.string s)) = .ok a := by
  have hstring : stringAs expected source (Reading.ofValue (.string s)) = .ok s := rfl
  simp [parsed, hstring, h]

end Decode

/-!
# Records
-/

namespace Fields

def readings (members : List (String × Value)) : List (String × Reading) :=
  members.map fun m => (m.1, Reading.ofValue m.2)

def Accepts (fields : List Field) (source : Source) (m : String × Value) : Prop :=
  ∃ f, fields.find? (fun f => f.name == m.1) = some f ∧
    f.fault source (Reading.ofValue m.2) = none

theorem members_ofMembers {fields : List Field} {source : Source}
    (ms : List (String × Value)) (seen : List String)
    (haccepts : ∀ m ∈ ms, Accepts fields source m)
    (hnames : (ms.map Prod.fst).Nodup)
    (hseen : ∀ m ∈ ms, m.1 ∉ seen) :
    members fields source seen (Reading.ofMembers ms) = .ok (readings ms) := by
  induction ms generalizing seen with
  | nil =>
      rfl
  | cons m rest ih =>
      rcases haccepts m List.mem_cons_self with ⟨f, hfind, hfault⟩
      rw [List.map_cons, List.nodup_cons] at hnames
      have hfresh : seen.contains m.1 = false := by
        simpa using hseen m List.mem_cons_self
      have hrest := ih (m.1 :: seen) (fun n hn => haccepts n (List.mem_cons_of_mem m hn))
        hnames.right (by
          intro n hn hmem
          rcases List.mem_cons.mp hmem with hsame | hold
          · exact hnames.left (List.mem_map.mpr ⟨n, hn, hsame⟩)
          · exact hseen n (List.mem_cons_of_mem m hn) hold)
      simp only [Reading.ofMembers, members, Scan.ofValue, hfind, hfresh, hfault, hrest]
      rfl

theorem record_ofValue {fields : Fields α} {source : Source} (name : String)
    (ms : List (String × Value)) {a : α}
    (haccepts : ∀ m ∈ ms, Accepts fields.fields source m)
    (hnames : (ms.map Prod.fst).Nodup)
    (hbuild : fields.build source (readings ms) = .ok a) :
    record name fields source (Reading.ofValue (.object ms)) = .ok a := by
  have hmembers := members_ofMembers ms [] haccepts hnames (by
    intro m _ hmem
    cases hmem)
  simp only [record, Reading.ofValue, hmembers, Tail.whenMore, stopOn]
  exact hbuild

end Fields
end Json

/-!
# Properties and states
-/

theorem insertEntry_append {key value : String} {entries : List (String × String)}
    (h : ∀ e ∈ entries, e.1 < key) :
    insertEntry key value entries = entries ++ [(key, value)] := by
  induction entries with
  | nil =>
      rfl
  | cons e rest ih =>
      have hless := h e List.mem_cons_self
      have hnot : ¬ key < e.1 := by
        intro hgreater
        exact String.lt_irrefl key (String.lt_trans hgreater hless)
      have hne : key ≠ e.1 := by
        intro heq
        rw [heq] at hless
        exact String.lt_irrefl e.1 hless
      rw [insertEntry, if_neg hnot, if_neg hne,
        ih fun d hd => h d (List.mem_cons_of_mem e hd), List.cons_append]

namespace Properties

theorem entries_foldl_insert (entries : List (String × String)) (p : Properties)
    (h : Ascending (p.entries ++ entries)) :
    (entries.foldl (fun p e => p.insert e.1 e.2) p).entries = p.entries ++ entries := by
  induction entries generalizing p with
  | nil =>
      simp
  | cons e rest ih =>
      have hbefore : ∀ d ∈ p.entries, d.1 < e.1 := by
        intro d hd
        exact (List.pairwise_append.mp h).right.right d hd e List.mem_cons_self
      have hinsert : (p.insert e.1 e.2).entries = p.entries ++ [e] :=
        insertEntry_append hbefore
      rw [List.foldl_cons, ih, hinsert]
      · simp
      · rw [hinsert]
        simpa using h

theorem ofEntries_entries (p : Properties) : ofEntries p.entries = p := by
  have hentries : (ofEntries p.entries).entries = p.entries := by
    have h := entries_foldl_insert p.entries empty (by simpa [empty] using p.ascending)
    simpa [ofEntries, empty] using h
  cases p with
  | mk entries ascending =>
      cases hcollected : ofEntries entries with
      | mk found _ =>
          rw [hcollected] at hentries
          simp only at hentries
          subst hentries
          rfl

theorem entries_ofMembers (source : Json.Source) (entries : List (String × String)) :
    Json.Decode.entries source
      (Json.Reading.ofMembers (entries.map fun e => (e.1, .string e.2))) = .ok entries := by
  induction entries with
  | nil =>
      rfl
  | cons e rest ih =>
      simp only [List.map_cons, Json.Reading.ofMembers, Json.Decode.entries, Json.Scan.ofValue,
        Json.Decode.string_ofValue, ih]
      rfl

theorem decode_toJson (source : Json.Source) (p : Properties) :
    decode source (Json.Reading.ofValue p.toJson) = .ok p := by
  have hmap : Json.Decode.stringMap source (Json.Reading.ofValue p.toJson) = .ok p.entries := by
    simp [toJson, Json.Reading.ofValue, Json.Decode.stringMap, entries_ofMembers, Json.stopOn,
      Json.Tail.whenMore]
  rw [decode, hmap]
  simp [Except.map, ofEntries_entries]

theorem plain_toJson (p : Properties) : p.toJson.Plain := by
  rw [toJson, Json.Value.Plain]
  induction p.entries with
  | nil =>
      simp [Json.Value.PlainMembers]
  | cons e rest ih =>
      simp [Json.Value.PlainMembers, Json.Value.Plain, ih]

end Properties

theorem ServerState.decode_toJson (source : Json.Source) (s : ServerState) :
    ServerState.decode source (Json.Reading.ofValue s.toJson) = .ok s := by
  rw [ServerState.decode, ServerState.toJson, Json.Decode.string_ofValue]
  simp [Except.map, ServerState.ofText_name]

theorem Id.decode_toJson {kind : IdKind} (source : Json.Source) (id : Id kind) :
    Id.decode source (Json.Reading.ofValue id.toJson) = .ok id := by
  rw [Id.decode, Id.toJson]
  apply Json.Decode.parsed_ofValue
  rw [Id.ofText_text]
  rfl

theorem Id.decodeText_toJson {kind : IdKind} (id : Id kind) :
    Json.decodeText decode id.toJson.text = .ok id := by
  have hplain : id.toJson.Plain := by
    simp [toJson, Json.Value.Plain]
  rw [Json.decodeText_text hplain]
  exact decode_toJson .text id

theorem ScalingPolicy.decode_toJson (source : Json.Source) (p : ScalingPolicy) :
    ScalingPolicy.decode source (Json.Reading.ofValue p.toJson) = .ok p := by
  cases p <;> rfl

/-!
# Groups
-/

namespace Group

def members (g : Group) : List (String × Json.Value) := [
  ("name", .string g.name),
  ("server_type", .string g.serverType),
  ("memory_min_mb", .nat g.memoryMin.toNat),
  ("memory_max_mb", .nat g.memoryMax.toNat),
  ("start_port", .nat g.startPort.toNat),
  ("min_online_count", .nat g.minOnline.toNat),
  ("max_online_count", .nat g.maxOnline.toNat),
  ("max_players", .nat g.maxPlayers.toNat),
  ("new_instance_ratio", .nat g.newInstanceRatio.toNat),
  ("scaling_policy", g.policy.toJson),
  ("properties", g.properties.toJson)]

theorem toJson_eq_object (g : Group) : g.toJson = .object g.members :=
  rfl

theorem nodup_members (g : Group) : (g.members.map Prod.fst).Nodup := by
  simp [members]

open Json Fields in
theorem accepts_members (source : Source) (g : Group) :
    ∀ m ∈ g.members, Accepts fields.fields source m := by
  simp [members, Accepts, fields, Functor.map, Seq.seq, required, Fields.optional, errorOf,
    Decode.string_ofValue, Decode.word32_ofValue, Decode.word16_ofValue,
    Properties.decode_toJson, ScalingPolicy.decode_toJson]

open Json Fields in
theorem build_members (source : Source) (g : Group) :
    fields.build source (readings g.members) = .ok g := by
  simp [fields, Functor.map, Seq.seq, required, Fields.optional, find?, readings, members,
    Except.map, Decode.string_ofValue, Decode.word32_ofValue,
    Decode.word16_ofValue, Properties.decode_toJson, ScalingPolicy.decode_toJson]

theorem decode_toJson (source : Json.Source) (g : Group) :
    decode source (Json.Reading.ofValue g.toJson) = .ok g := by
  rw [toJson_eq_object]
  exact Json.Fields.record_ofValue "Group" g.members (accepts_members source g)
    (nodup_members g) (build_members source g)

theorem plain_toJson (g : Group) : g.toJson.Plain := by
  have hword (n : UInt32) : n.toNat < Json.Numeral.wordBound :=
    Nat.lt_trans n.toNat_lt (by decide)
  have hport : g.startPort.toNat < Json.Numeral.wordBound :=
    Nat.lt_trans g.startPort.toNat_lt (by decide)
  simp [toJson, Json.Value.Plain, Json.Value.PlainMembers, Json.Value.nat,
    ScalingPolicy.toJson, hword, hport, Properties.plain_toJson]

theorem decodeText_toJson (g : Group) : Json.decodeText decode g.toJson.text = .ok g := by
  rw [Json.decodeText_text g.plain_toJson]
  exact g.decode_toJson .text

end Group

/-!
# Servers
-/

namespace Server

theorem decodeInstant_text (source : Json.Source) (t : Time.Instant) :
    decodeInstant source (Json.Reading.ofValue (.string t.text)) = .ok t := by
  rw [decodeInstant]
  apply Json.Decode.parsed_ofValue
  rw [Time.Instant.ofText_text]
  rfl

def members (s : Server) : List (String × Json.Value) := [
  ("id", s.id.toJson),
  ("group", .string s.group),
  ("server_type", .string s.serverType),
  ("numeric_id", .nat s.number.toNat),
  ("host_id", s.hostId.toJson),
  ("address", .string s.address),
  ("port", .nat s.port.toNat),
  ("memory_min_mb", .nat s.memoryMin.toNat),
  ("memory_max_mb", .nat s.memoryMax.toNat),
  ("max_players", .nat s.maxPlayers.toNat),
  ("player_count", .nat s.playerCount.toNat),
  ("properties", s.properties.toJson),
  ("state", s.state.toJson),
  ("created_at", .string s.createdAt.text),
  ("updated_at", .string s.updatedAt.text)]

theorem toJson_eq_object (s : Server) : s.toJson = .object s.members :=
  rfl

theorem nodup_members (s : Server) : (s.members.map Prod.fst).Nodup := by
  simp [members]

open Json Fields in
theorem accepts_members (source : Source) (s : Server) :
    ∀ m ∈ s.members, Accepts fields.fields source m := by
  simp [members, Accepts, fields, Functor.map, Seq.seq, required, Fields.optional, errorOf,
    Id.decode_toJson, Decode.string_ofValue, Decode.word32_ofValue, Decode.word16_ofValue,
    Properties.decode_toJson, ServerState.decode_toJson, decodeInstant_text]

open Json Fields in
theorem build_members (source : Source) (s : Server) :
    fields.build source (readings s.members) = .ok s := by
  simp [fields, Functor.map, Seq.seq, required, Fields.optional, find?, readings, members,
    Except.map, Id.decode_toJson, Decode.string_ofValue, Decode.word32_ofValue,
    Decode.word16_ofValue, Properties.decode_toJson, ServerState.decode_toJson,
    decodeInstant_text]

theorem decode_toJson (source : Json.Source) (s : Server) :
    decode source (Json.Reading.ofValue s.toJson) = .ok s := by
  rw [toJson_eq_object]
  exact Json.Fields.record_ofValue "Server" s.members (accepts_members source s)
    (nodup_members s) (build_members source s)

theorem plain_toJson (s : Server) : s.toJson.Plain := by
  have hword (n : UInt32) : n.toNat < Json.Numeral.wordBound :=
    Nat.lt_trans n.toNat_lt (by decide)
  have hport : s.port.toNat < Json.Numeral.wordBound :=
    Nat.lt_trans s.port.toNat_lt (by decide)
  simp [toJson, Json.Value.Plain, Json.Value.PlainMembers, Json.Value.nat, Id.toJson,
    ServerState.toJson, hword, hport, Properties.plain_toJson]

theorem decodeText_toJson (s : Server) :
    Json.decodeText decode s.toJson.text = .ok s := by
  rw [Json.decodeText_text s.plain_toJson]
  exact s.decode_toJson .text

end Server

/-!
# Hosts
-/

namespace Host

def members (h : Host) : List (String × Json.Value) := [
  ("id", h.id.toJson),
  ("address", .string h.address),
  ("endpoint", .string h.endpoint)]

theorem toJson_eq_object (h : Host) : h.toJson = .object h.members :=
  rfl

theorem nodup_members (h : Host) : (h.members.map Prod.fst).Nodup := by
  simp [members]

open Json Fields in
theorem accepts_members (source : Source) (h : Host) :
    ∀ m ∈ h.members, Accepts fields.fields source m := by
  simp [members, Accepts, fields, Functor.map, Seq.seq, required, errorOf, Id.decode_toJson,
    Decode.string_ofValue]

open Json Fields in
theorem build_members (source : Source) (h : Host) :
    fields.build source (readings h.members) = .ok h := by
  simp [fields, Functor.map, Seq.seq, required, find?, readings, members, Except.map,
    Id.decode_toJson, Decode.string_ofValue]

theorem decode_toJson (source : Json.Source) (h : Host) :
    decode source (Json.Reading.ofValue h.toJson) = .ok h := by
  rw [toJson_eq_object]
  exact Json.Fields.record_ofValue "HostDescriptor" h.members (accepts_members source h)
    (nodup_members h) (build_members source h)

theorem plain_toJson (h : Host) : h.toJson.Plain := by
  simp [toJson, Json.Value.Plain, Json.Value.PlainMembers, Id.toJson]

theorem decodeText_toJson (h : Host) : Json.decodeText decode h.toJson.text = .ok h := by
  rw [Json.decodeText_text h.plain_toJson]
  exact h.decode_toJson .text

end Host
end ServerFleet
