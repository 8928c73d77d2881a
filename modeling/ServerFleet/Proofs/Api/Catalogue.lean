import ServerFleet.Proofs.Api.Access
import ServerFleet.Proofs.Store.Catalogue

/-!
# Groups over HTTP

The endpoints of groups are a validated map.  Whatever was asked before, a request is
answered as one map from names to groups would answer it, and the table below holds just
that map.
-/

namespace ServerFleet
namespace Api

inductive GroupRequest where
  | list (kind : Option String)
  | create (g : Group)
  | get (name : String)
  | update (name : String) (g : Group)
  | delete (name : String)

namespace GroupRequest

/-- The map after a request: only valid groups get in, each under its name, and none is made anew that is
there or changed that is not. -/
def after (m : Catalogue) : GroupRequest → Catalogue
  | .list _ => m
  | .create g =>
      if g.validate = .ok () ∧ m g.name = none then Function.update m g.name (some g) else m
  | .get _ => m
  | .update name g =>
      if g.name = name ∧ g.validate = .ok () ∧ m name ≠ none then Function.update m name (some g)
      else m
  | .delete name => Function.update m name none

/-- What a map answers to a request.  The checks of a group come before the question whether it is there. -/
def Answers (m : Catalogue) (response : Http.Response) : GroupRequest → Prop
  | .list kind => ∃ groups : List Group,
      response = .json 200 (listJson Group.toJson groups) ∧
        groups.Pairwise (fun a b => a.name < b.name) ∧
        ∀ g, g ∈ groups ↔ m g.name = some g ∧ ∀ t ∈ kind, g.serverType = t
  | .create g =>
      response =
        match g.validate, m g.name with
        | .error e, _ => (Problem.make 400 "invalid_group" e.message).response
        | .ok (), some _ =>
            (Problem.make 409 "group_exists" ("group " ++ g.name ++ " already exists")).response
        | .ok (), none => .json 201 g.toJson
  | .get name =>
      response =
        match m name with
        | some g => .json 200 g.toJson
        | none => (Problem.make 404 "group_not_found" ("group not found: " ++ name)).response
  | .update name g =>
      response =
        if g.name ≠ name then
          (Problem.make 400 "name_mismatch"
            ("body names group " ++ g.name ++ " but path names " ++ name)).response
        else
          match g.validate, m name with
          | .error e, _ => (Problem.make 400 "invalid_group" e.message).response
          | .ok (), none =>
              (Problem.make 404 "group_not_found" ("group not found: " ++ name)).response
          | .ok (), some _ => .json 200 g.toJson
  | .delete name =>
      response =
        match m name with
        | some _ => .empty 204
        | none => (Problem.make 404 "group_not_found" ("group not found: " ++ name)).response

end GroupRequest

/-- A request over HTTP that can be read: its method, its path, its query and its body say what it wants. -/
def Asks (r : Http.Request) : GroupRequest → Prop
  | .list kind => r.method = "GET" ∧ r.resource? = some .groups ∧
      Http.queryField? "type" (Http.Target.ofText r.target).query = some kind
  | .create g => r.method = "POST" ∧ r.resource? = some .groups ∧
      decodeBody Group.decode r = .ok g
  | .get name => r.method = "GET" ∧ ∃ raw, r.resource? = some (.group raw) ∧
      Text.percentDecode? raw = some name
  | .update name g => r.method = "PUT" ∧ (∃ raw, r.resource? = some (.group raw) ∧
      Text.percentDecode? raw = some name) ∧ decodeBody Group.decode r = .ok g
  | .delete name => r.method = "DELETE" ∧ ∃ raw, r.resource? = some (.group raw) ∧
      Text.percentDecode? raw = some name

/-- A step answers a request as a map does, and puts the next map below the controller; an answer that is
no success leaves the controller as it was. -/
structure Agrees (m : Catalogue) (a : GroupRequest) (c : Controller) (step : Controller × Reply) :
    Prop where
  answer : ∃ response, step.2 = .now response ∧ a.Answers m response ∧
    (200 ≤ response.status ∧ response.status < 300 ∨ step.1 = c)
  represents : step.1.store.database.Represents (a.after m)

variable {c : Controller} {m : Catalogue} {r : Http.Request} {g : Group} {name raw query : String}

/-!
# Reading
-/

theorem agrees_listGroups {kind : Option String} (h : c.store.database.Represents m)
    (hquery : Http.queryField? "type" query = some kind) :
    Agrees m (.list kind) c ((listGroups c query).read c) := by
  rcases h.loadGroups_eq with ⟨groups, hload, hsorted, hmem⟩
  constructor
  case represents =>
    exact h
  case answer =>
    cases kind with
    | none =>
        have hlist : listGroups c query = .ok (.json 200 (listJson Group.toJson groups)) := by
          simp only [listGroups, typeFilter, hquery, stored, hload]
          rfl
        rw [hlist]
        exact ⟨_, rfl, ⟨groups, rfl, hsorted, by simp [hmem]⟩, .inr rfl⟩
    | some t =>
        have hlist : listGroups c query =
            .ok (.json 200 (listJson Group.toJson (groups.filter fun g => g.serverType == t))) := by
          simp only [listGroups, typeFilter, hquery, stored, hload]
          rfl
        rw [hlist]
        exact ⟨_, rfl, ⟨_, rfl, hsorted.filter _, by simp [hmem]⟩, .inr rfl⟩

theorem agrees_getGroup (h : c.store.database.Represents m)
    (hname : Text.percentDecode? raw = some name) :
    Agrees m (.get name) c ((getGroup c raw).read c) := by
  have hget : getGroup c raw =
      match m name with
      | some g => .ok (.json 200 g.toJson)
      | none => .error (groupMissing name) := by
    simp only [getGroup, pathText, hname, bind, Except.bind, h.findGroup_eq, stored, Except.mapError]
    rfl
  constructor
  case represents =>
    exact h
  case answer =>
    refine ⟨_, rfl, ?_, .inr rfl⟩
    rw [hget, GroupRequest.Answers]
    cases m name <;> rfl

/-!
# Writing
-/

theorem agrees_error {a : GroupRequest} {response : Http.Response} (h : c.store.database.Represents m)
    (hafter : a.after m = m) (hanswer : a.Answers m response) :
    Agrees m a c (Attempt.write c (.error response)) where
  answer := ⟨response, rfl, hanswer, .inr rfl⟩
  represents := by
    rw [hafter]
    exact h

theorem agrees_ok {a : GroupRequest} {response : Http.Response} {db : Database}
    (h : db.Represents (a.after m)) (hanswer : a.Answers m response)
    (hsuccess : 200 ≤ response.status ∧ response.status < 300) :
    Agrees m a c (Attempt.write c (.ok (withDatabase c db, response))) where
  answer := ⟨response, rfl, hanswer, .inl hsuccess⟩
  represents := h

theorem agrees_createGroup (h : c.store.database.Represents m)
    (hbody : decodeBody Group.decode r = .ok g) :
    Agrees m (.create g) c ((createGroup c r).write c) := by
  have hcreate : createGroup c r = (do
      validated g
      match m g.name with
      | some _ =>
          .error (Problem.conflict "group_exists" ("group " ++ g.name ++ " already exists")).response
      | none => .ok (withDatabase c (c.store.database.withGroup g), .json 201 g.toJson)) := by
    simp only [createGroup, hbody, bind, Except.bind, h.findGroup_eq, h.saveGroup_eq, stored,
      Except.mapError]
    rfl
  rw [hcreate, validated]
  cases hvalid : g.validate with
  | error e =>
      apply agrees_error h
      · simp [GroupRequest.after, hvalid]
      · simp [GroupRequest.Answers, hvalid, Problem.badRequest]
  | ok =>
      cases hfound : m g.name with
      | some old =>
          apply agrees_error h
          · simp [GroupRequest.after, hfound]
          · simp [GroupRequest.Answers, hvalid, hfound, Problem.conflict]
      | none =>
          apply agrees_ok
          · rw [GroupRequest.after, if_pos ⟨hvalid, hfound⟩]
            exact h.stored hvalid
          · simp [GroupRequest.Answers, hvalid, hfound]
          · simp [Http.Response.json]

theorem agrees_updateGroup (h : c.store.database.Represents m)
    (hname : Text.percentDecode? raw = some name) (hbody : decodeBody Group.decode r = .ok g) :
    Agrees m (.update name g) c ((updateGroup c raw r).write c) := by
  have hupdate : updateGroup c raw r =
      if g.name ≠ name then
        .error (Problem.badRequest "name_mismatch"
          ("body names group " ++ g.name ++ " but path names " ++ name)).response
      else (do
        validated g
        if m name = none then .error (groupMissing name)
        else .ok (withDatabase c (c.store.database.withGroup g), .json 200 g.toJson)) := by
    simp only [updateGroup, pathText, hname, hbody, bind, Except.bind, h.findGroup_eq,
      h.saveGroup_eq, stored, Except.mapError]
    cases m name <;> rfl
  rw [hupdate]
  by_cases hsame : g.name = name
  case neg =>
    rw [if_pos hsame]
    apply agrees_error h
    · simp [GroupRequest.after, hsame]
    · simp [GroupRequest.Answers, hsame, Problem.badRequest]
  case pos =>
    -- The names are one from here on, so that the group is stored under the name it was asked for.
    subst hsame
    rw [if_neg (not_not_intro rfl), validated]
    cases hvalid : g.validate with
    | error e =>
        apply agrees_error h
        · simp [GroupRequest.after, hvalid]
        · simp [GroupRequest.Answers, hvalid, Problem.badRequest]
    | ok =>
        cases hfound : m g.name with
        | none =>
            apply agrees_error h
            · simp [GroupRequest.after, hfound]
            · simp [GroupRequest.Answers, hvalid, hfound, groupMissing, Problem.notFound]
        | some old =>
            apply agrees_ok
            · rw [GroupRequest.after, if_pos ⟨rfl, hvalid, by simp [hfound]⟩]
              exact h.stored hvalid
            · simp [GroupRequest.Answers, hvalid, hfound]
            · simp [Http.Response.json]

theorem agrees_deleteGroup (h : c.store.database.Represents m)
    (hname : Text.percentDecode? raw = some name) :
    Agrees m (.delete name) c ((deleteGroup c raw).write c) := by
  cases hfound : m name with
  | none =>
      have hdelete : deleteGroup c raw = .error (groupMissing name) := by
        simp only [deleteGroup, pathText, hname, bind, Except.bind, h.deleteGroup_eq, hfound,
          if_true, stored, Except.mapError]
      rw [hdelete]
      apply agrees_error h
      · exact Function.update_eq_self_iff.mpr hfound.symm
      · simp [GroupRequest.Answers, hfound, groupMissing, Problem.notFound]
  | some old =>
      have hdelete : deleteGroup c raw =
          .ok (withDatabase c (c.store.database.withoutGroup name), .empty 204) := by
        simp only [deleteGroup, pathText, hname, bind, Except.bind, h.deleteGroup_eq, hfound,
          stored, Except.mapError]
        rfl
      rw [hdelete]
      apply agrees_ok
      · exact h.deleted name
      · simp [GroupRequest.Answers, hfound]
      · simp [Http.Response.empty]

/-!
# One request
-/

theorem handle_eq_dispatch {token : Option String} {method : String} {resource : Resource}
    (hpath : r.resource? = some resource) (hmethod : r.method = method)
    (hknown : method ≠ "OPTIONS" ∧ method ≠ "HEAD") (hadmits : Admits token r) (ctx : Context) :
    handle token c ctx r =
      dispatch c ctx resource method (Http.Target.ofText r.target).query r := by
  subst hmethod
  rw [handle_of_admits hpath hknown.left hadmits]
  simp only [served, Http.Request.verb, Reply.to, hknown.right, if_false]

theorem agrees_handle {token : Option String} {a : GroupRequest}
    (h : c.store.database.Represents m) (hadmits : Admits token r) (hasks : Asks r a)
    (ctx : Context) : Agrees m a c (handle token c ctx r) := by
  cases a with
  | list kind =>
      rcases hasks with ⟨hmethod, hpath, hquery⟩
      rw [handle_eq_dispatch hpath hmethod (by decide) hadmits]
      exact agrees_listGroups h hquery
  | create g =>
      rcases hasks with ⟨hmethod, hpath, hbody⟩
      rw [handle_eq_dispatch hpath hmethod (by decide) hadmits]
      exact agrees_createGroup h hbody
  | get name =>
      rcases hasks with ⟨hmethod, raw, hpath, hname⟩
      rw [handle_eq_dispatch hpath hmethod (by decide) hadmits]
      exact agrees_getGroup h hname
  | update name g =>
      rcases hasks with ⟨hmethod, ⟨raw, hpath, hname⟩, hbody⟩
      rw [handle_eq_dispatch hpath hmethod (by decide) hadmits]
      exact agrees_updateGroup h hname hbody
  | delete name =>
      rcases hasks with ⟨hmethod, raw, hpath, hname⟩
      rw [handle_eq_dispatch hpath hmethod (by decide) hadmits]
      exact agrees_deleteGroup h hname

/-!
# All requests
-/

def serve (token : Option String) (c : Controller) (requests : List (Context × Http.Request)) :
    Controller :=
  requests.foldl (fun c request => (handle token c request.1 request.2).1) c

def GroupRequest.afterAll (asked : List GroupRequest) : Catalogue :=
  asked.foldl GroupRequest.after fun _ => none

theorem represents_nothing {db : Database} (htable : db.hasGroups = true) (hempty : db.groups = [])
    (hpermits : ∀ name, db.refusal (.saveGroup name) = none ∧ db.refusal (.deleteGroup name) = none) :
    db.Represents fun _ => none where
  table := htable
  permits := hpermits
  keys := by
    rw [hempty]
    exact List.nodup_nil
  rows := by
    rw [hempty]
    exact fun row hrow => nomatch hrow
  named := fun _ hname => absurd rfl hname

theorem represents_serve {token : Option String} {requests : List (Context × Http.Request)}
    {asked : List GroupRequest}
    (hasked : List.Forall₂ (fun request a => Admits token request.2 ∧ Asks request.2 a) requests asked)
    (h : c.store.database.Represents m) :
    (serve token c requests).store.database.Represents (asked.foldl GroupRequest.after m) := by
  induction hasked generalizing c m with
  | nil =>
      exact h
  | cons hfirst _ ih =>
      exact ih (agrees_handle h hfirst.left hfirst.right _).represents

/-- Whatever was asked of the groups before, they are a validated map. -/
theorem groups_are_validated_map {token : Option String} {c : Controller}
    (htable : c.store.database.hasGroups = true) (hempty : c.store.database.groups = [])
    (hpermits : ∀ name, c.store.database.refusal (.saveGroup name) = none ∧
      c.store.database.refusal (.deleteGroup name) = none)
    {requests : List (Context × Http.Request)} {asked : List GroupRequest}
    (hasked : List.Forall₂ (fun request a => Admits token request.2 ∧ Asks request.2 a) requests asked) :
    let now := serve token c requests
    let m := GroupRequest.afterAll asked
    (now.store.database.groups.map GroupRow.key).Nodup ∧
      (∀ row ∈ now.store.database.groups, ∃ g,
        Json.decodeText Group.decode row.body = .ok g ∧ g.validate = .ok () ∧ row.key = g.name) ∧
      (∀ name, now.store.database.findGroup name = .ok (m name)) ∧
      ∀ ctx r a, Admits token r → Asks r a →
        ∃ response, (handle token now ctx r).2 = .now response ∧ a.Answers m response ∧
          (200 ≤ response.status ∧ response.status < 300 ∨ (handle token now ctx r).1 = now) := by
  have h := represents_serve hasked (represents_nothing htable hempty hpermits)
  refine ⟨h.keys, ?_, h.findGroup_eq, ?_⟩
  · intro row hrow
    rcases h.rows row hrow with ⟨g, hdecoded, hvalid, hname, _⟩
    exact ⟨g, hdecoded, hvalid, hname.symm⟩
  · intro ctx r a hadmits hasks
    exact (agrees_handle h hadmits hasks ctx).answer

/-!
# One group made and read
-/

namespace Arena

def arena : Group where
  name := "the arena"
  serverType := "game"
  memoryMin := 512
  memoryMax := 1024
  startPort := 30000
  minOnline := 1
  maxOnline := 5
  maxPlayers := 10
  newInstanceRatio := 80
  policy := .slotRatio
  properties := .empty

def made : Http.Request :=
  ⟨"POST", "/v1/groups", [("Content-Type", "application/json")], arena.toJson.text⟩

def read : Http.Request :=
  ⟨"GET", "/v1/groups/the%20arena", [], ""⟩

def nobody : Controller :=
  ⟨⟨⟨0⟩, "secret"⟩, ⟨.empty, [], []⟩, .empty, [], .empty⟩

theorem asks_made : Asks made (.create arena) := by
  refine ⟨rfl, by decide, ?_⟩
  have htype : made.header? "Content-Type" = some "application/json" := by decide
  have hjson : Http.isJsonType "application/json" = true := by decide
  have htext : Http.isHeaderText "application/json" = true := by decide
  have hdecoded : Json.decodeText Group.decode made.body = .ok arena := arena.decodeText_toJson
  simp [decodeBody, htype, hjson, htext, hdecoded]

theorem asks_read : Asks read (.get "the arena") :=
  ⟨rfl, "the%20arena", by decide, by decide +kernel⟩

def context : Context :=
  ⟨⟨⟨⟨2031, 5, 17, by decide, by decide, by decide⟩, 3600, 5, by decide, by decide⟩, Id.ofNat 1⟩,
    Id.ofNat 2, Id.ofNat 3⟩

end Arena

open Arena in
theorem groups_are_validated_map_arena :
    let now := serve none nobody [(context, made)]
    now.store.database.findGroup "the arena" = .ok (some arena) ∧
      (handle none now context read).2 = .now (.json 200 arena.toJson) := by
  have hadmits (r : Http.Request) : Admits none r := fun _ hnone => nomatch hnone
  have hmap : GroupRequest.afterAll [.create arena] "the arena" = some arena := by
    decide +kernel
  rcases @groups_are_validated_map none nobody rfl rfl (fun _ => ⟨rfl, rfl⟩) [(context, made)]
    [.create arena] (.cons ⟨hadmits made, asks_made⟩ .nil) with ⟨_, _, hfind, hanswers⟩
  rcases hanswers context read (.get "the arena") (hadmits read) asks_read with
    ⟨response, hresponse, hanswer, _⟩
  rw [GroupRequest.Answers, hmap] at hanswer
  exact ⟨by rw [hfind, hmap], by rw [hresponse, hanswer]⟩

end Api
end ServerFleet
