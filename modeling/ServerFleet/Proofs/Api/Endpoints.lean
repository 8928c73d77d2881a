import Mathlib.Data.List.DropRight
import ServerFleet.Agent.Client
import ServerFleet.Proofs.Api.Catalogue
import ServerFleet.Proofs.Api.Requests
import ServerFleet.Proofs.Api.Tokens

/-!
# Registered endpoints

An endpoint is checked for its scheme as it is sent, and only then loses the slashes at its end.
To the addresses of calls this makes no difference, since those drop them once more.  It makes one
to the endpoint itself if nothing but slashes stands behind the scheme: then the scheme is all that
is left of it, and the registered endpoint is no HTTP address any more.
-/

namespace ServerFleet

/-!
# Slashes at the end
-/

namespace Text

variable {c : Char} {s t : String}

theorem toList_dropBack (c : Char) (s : String) :
    (dropBack c s).toList = s.toList.rdropWhile (· == c) := by
  rw [dropBack, String.toList_ofList, List.rdropWhile]

theorem dropBack_dropBack (c : Char) (s : String) : dropBack c (dropBack c s) = dropBack c s := by
  rw [← String.toList_inj, toList_dropBack, toList_dropBack, List.rdropWhile_idempotent]

theorem getLast?_dropBack (c : Char) (s : String) : (dropBack c s).toList.getLast? ≠ some c := by
  intro hlast
  rw [toList_dropBack] at hlast
  obtain ⟨hne, hc⟩ := List.mem_getLast?_eq_getLast hlast
  have hstays := List.rdropWhile_last_not (· == c) s.toList hne
  rw [← hc, beq_self_eq_true] at hstays
  exact hstays rfl

theorem dropBack_append_of_exists (s : String) (h : ∃ x ∈ t.toList, x ≠ c) :
    dropBack c (s ++ t) = s ++ dropBack c t := by
  have hstays : t.toList.reverse.dropWhile (· == c) ≠ [] := by
    obtain ⟨x, hx, hne⟩ := h
    rw [ne_eq, List.dropWhile_eq_nil_iff]
    intro hall
    exact hne (beq_iff_eq.mp (hall x (List.mem_reverse.mpr hx)))
  rw [← String.toList_inj, toList_dropBack, String.toList_append, String.toList_append, toList_dropBack,
    List.rdropWhile, List.rdropWhile, List.reverse_append, List.dropWhile_append,
    if_neg (mt List.isEmpty_iff.mp hstays), List.reverse_append, List.reverse_reverse]

theorem dropBack_append_of_forall (s : String) (h : ∀ x ∈ t.toList, x = c) :
    dropBack c (s ++ t) = dropBack c s := by
  have hdropped : t.toList.reverse.dropWhile (· == c) = [] := by
    rw [List.dropWhile_eq_nil_iff]
    intro x hx
    exact beq_iff_eq.mpr (h x (List.mem_reverse.mp hx))
  rw [← String.toList_inj, toList_dropBack, toList_dropBack, String.toList_append, List.rdropWhile,
    List.rdropWhile, List.reverse_append, List.dropWhile_append, hdropped, List.isEmpty_nil, if_pos rfl]

theorem trim_eq_empty_iff : trim s = "" ↔ isBlankText s = true := by
  rw [isBlankText, List.all_eq_true]
  constructor
  · intro hempty
    exact isBlank_of_trim_isEmpty (String.isEmpty_iff.mpr hempty)
  · intro hblank
    rw [← String.toList_eq_nil_iff, toList_trim, trimFront_eq_nil_iff.mpr hblank]
    rfl

theorem isBlankText_trim (s : String) : isBlankText (trim s) = isBlankText s := by
  rw [Bool.eq_iff_iff, ← trim_eq_empty_iff, ← trim_eq_empty_iff, trim_trim]

end Text

namespace Api

/-!
# Addresses
-/

def schemes : List String :=
  ["http:", "https:"]

/-- An HTTP address: one of the schemes, two slashes, and whatever follows. -/
def IsHttp (endpoint : String) : Prop :=
  ∃ scheme ∈ schemes, ∃ rest, endpoint = scheme ++ "//" ++ rest

/-- An HTTP address in which more than slashes follows. -/
def NamesHost (endpoint : String) : Prop :=
  ∃ scheme ∈ schemes, ∃ rest, endpoint = scheme ++ "//" ++ rest ∧ ∃ c ∈ rest.toList, c ≠ '/'

theorem isHttp_of_namesHost {endpoint : String} (h : NamesHost endpoint) : IsHttp endpoint := by
  obtain ⟨scheme, hscheme, rest, heq, _⟩ := h
  exact ⟨scheme, hscheme, rest, heq⟩

theorem isPrefixOf_iff {lead s : String} : lead.isPrefixOf s = true ↔ ∃ rest, s = lead ++ rest := by
  rw [String.isPrefixOf, String.startsWith_string_iff]
  constructor
  · rintro ⟨rest, hrest⟩
    refine ⟨String.ofList rest, ?_⟩
    rw [← String.toList_inj, String.toList_append, String.toList_ofList, hrest]
  · rintro ⟨rest, rfl⟩
    rw [String.toList_append]
    exact List.prefix_append _ _

theorem isHttp_iff {endpoint : String} :
    IsHttp endpoint ↔
      ("http://".isPrefixOf endpoint || "https://".isPrefixOf endpoint) = true := by
  have hplain : "http:" ++ "//" = "http://" := rfl
  have hsecure : "https:" ++ "//" = "https://" := rfl
  rw [Bool.or_eq_true, isPrefixOf_iff, isPrefixOf_iff]
  simp [IsHttp, schemes, hplain, hsecure]

theorem not_isHttp_of_mem_schemes {scheme : String} (h : scheme ∈ schemes) : ¬ IsHttp scheme := by
  rintro ⟨lead, hlead, rest, heq⟩
  have hlengths : ∀ s ∈ schemes, 5 ≤ s.length ∧ s.length ≤ 6 := by decide
  have hslashes : "//".length = 2 := rfl
  have hlength := congrArg String.length heq
  rw [String.length_append, String.length_append, hslashes] at hlength
  have hlong := (hlengths lead hlead).left
  have hshort := (hlengths scheme h).right
  omega

/-- Without the slashes at its end an HTTP address still is one if it names a host, and is its scheme if
not. -/
theorem isHttp_dropBack {endpoint : String} (h : NamesHost endpoint) :
    IsHttp (Text.dropBack '/' endpoint) := by
  obtain ⟨scheme, hscheme, rest, rfl, hmore⟩ := h
  exact ⟨scheme, hscheme, Text.dropBack '/' rest, Text.dropBack_append_of_exists _ hmore⟩

theorem dropBack_mem_schemes {endpoint : String} (hhttp : IsHttp endpoint)
    (h : ¬ NamesHost endpoint) : Text.dropBack '/' endpoint ∈ schemes := by
  obtain ⟨scheme, hscheme, rest, rfl⟩ := hhttp
  have hslashes : ∀ c ∈ rest.toList, c = '/' := by
    intro c hc
    by_contra hne
    exact h ⟨scheme, hscheme, rest, rfl, c, hc, hne⟩
  have hbare : Text.dropBack '/' (scheme ++ "//") = scheme := by
    simp only [schemes, List.mem_cons, List.not_mem_nil, or_false] at hscheme
    rcases hscheme with rfl | rfl <;> decide
  rw [Text.dropBack_append_of_forall _ hslashes, hbare]
  exact hscheme

/-!
# Bodies and hosts
-/

namespace HostBody

def Acceptable (body : HostBody) : Prop :=
  Text.isBlankText body.address = false ∧ IsHttp body.endpoint

/-- A host is what is registered for a body.  Its address is trimmed and not blank.  Its endpoint does not
end with a slash and leads every call to where the endpoint in the body would.  It is an HTTP address
if that one names a host, and one of the schemes if not. -/
structure Describes (body : HostBody) (host : Host) : Prop where
  address : host.address = Text.trim body.address
  bare : Text.Bare host.address
  filled : Text.isBlankText host.address = false
  slash : host.endpoint.toList.getLast? ≠ some '/'
  url : ∀ path, AgentCall.url host.endpoint path = AgentCall.url body.endpoint path
  http : IsHttp host.endpoint ↔ NamesHost body.endpoint
  scheme : ¬ NamesHost body.endpoint → host.endpoint ∈ schemes

variable {body : HostBody} {fresh : HostId} {host : Host}

theorem host_of_acceptable (h : body.Acceptable) (fresh : HostId) :
    body.host fresh =
      .ok ⟨body.id.getD fresh, Text.trim body.address, Text.dropBack '/' body.endpoint⟩ := by
  rw [HostBody.host, h.left, isHttp_iff.mp h.right]
  rfl

theorem host_of_not_acceptable (h : ¬ body.Acceptable) (fresh : HostId) :
    ∃ p : Problem, body.host fresh = .error p ∧ p.status = 400 := by
  rw [Acceptable, isHttp_iff] at h
  rw [HostBody.host]
  split
  next =>
    exact ⟨_, rfl, rfl⟩
  next hfilled =>
    rw [Bool.not_eq_true] at hfilled
    have hother := not_and.mp h hfilled
    rw [Bool.not_eq_true] at hother
    rw [hother]
    exact ⟨_, rfl, rfl⟩

theorem describes_of_acceptable (h : body.Acceptable) (id : HostId) :
    body.Describes ⟨id, Text.trim body.address, Text.dropBack '/' body.endpoint⟩ where
  address := rfl
  bare := Text.trim_eq_self_iff.mp (Text.trim_trim _)
  filled := (Text.isBlankText_trim _).trans h.left
  slash := Text.getLast?_dropBack '/' _
  url := fun path => congrArg (· ++ path) (Text.dropBack_dropBack '/' _)
  http := by
    refine ⟨?_, isHttp_dropBack⟩
    intro hhttp
    by_contra hslashes
    exact not_isHttp_of_mem_schemes (dropBack_mem_schemes h.right hslashes) hhttp
  scheme := dropBack_mem_schemes h.right

theorem describes_of_host (h : body.host fresh = .ok host) : body.Describes host := by
  by_cases hacceptable : body.Acceptable
  · rw [host_of_acceptable hacceptable] at h
    cases h
    exact describes_of_acceptable hacceptable _
  · obtain ⟨p, hrefused, _⟩ := host_of_not_acceptable hacceptable fresh
    rw [hrefused] at h
    cases h

end HostBody

/-!
# Registrations
-/

section

variable {token : Option String} {ctx : Context} {r : Http.Request} {body : HostBody} {host : Host}

theorem Registers.describes (h : Registers ctx r host) :
    ∃ body, decodeBody HostBody.decode r = .ok body ∧ body.Describes host := by
  obtain ⟨body, hbody, hrest⟩ := Attempt.bind_eq_ok h.order
  refine ⟨body, hbody, ?_⟩
  cases hhost : body.host ctx.hostId with
  | error p =>
      rw [hhost] at hrest
      cases hrest
  | ok described =>
      rw [hhost] at hrest
      cases hrest
      exact HostBody.describes_of_host hhost

theorem handle_registration (hpath : r.resource? = some .hosts) (hmethod : r.method = "POST")
    (hadmits : Admits token r) (c : Controller) (ctx : Context) :
    handle token c ctx r = (attachHost ctx.hostId r).order c hostOutcome := by
  rw [handle_eq_dispatch hpath hmethod (by decide) hadmits]
  rfl

theorem handle_of_acceptable (hpath : r.resource? = some .hosts) (hmethod : r.method = "POST")
    (hadmits : Admits token r) (hbody : decodeBody HostBody.decode r = .ok body)
    (h : body.Acceptable) (c : Controller) (ctx : Context) :
    handle token c ctx r =
      (c, .later (.attach ⟨body.id.getD ctx.hostId, Text.trim body.address,
        Text.dropBack '/' body.endpoint⟩) hostOutcome) := by
  rw [handle_registration hpath hmethod hadmits, attachHost, hbody]
  simp only [bind, Except.bind, HostBody.host_of_acceptable h]
  rfl

theorem handle_of_not_acceptable (hpath : r.resource? = some .hosts) (hmethod : r.method = "POST")
    (hadmits : Admits token r) (hbody : decodeBody HostBody.decode r = .ok body)
    (h : ¬ body.Acceptable) (c : Controller) (ctx : Context) :
    ∃ response : Http.Response, response.status = 400 ∧
      handle token c ctx r = (c, .now response) := by
  obtain ⟨p, hrefused, hstatus⟩ := HostBody.host_of_not_acceptable h ctx.hostId
  refine ⟨p.response, hstatus, ?_⟩
  rw [handle_registration hpath hmethod hadmits, attachHost, hbody]
  simp only [bind, Except.bind, hrefused]
  rfl

theorem mem_hosts_go_ask {w : Fleet} {c : Controller} {finish : Outcome → Http.Response}
    (h : handle token w.controller ctx r = (c, .later (.attach host) finish)) {env : Env}
    (hunused : env.serverId ∉ w.placed.map Identity.id) (replies : List ServerFleet.Reply) :
    host ∈ ((ask token w ctx r).go w.next env replies).controller.hosts := by
  have hasked : ask token w ctx r = ({ w with controller := c } : Fleet).spawn (.attach host) := by
    rw [ask, h]
  have htask : (ask token w ctx r).tasks w.next = some ⟨.attach host, .ordered⟩ := by
    rw [hasked]
    exact Function.update_self _ _ _
  have hgo : (ask token w ctx r).go w.next env replies =
      (ask token w ctx r).advance w.next (.attach host)
        ((ask token w ctx r).controller.begin env (.attach host)) := by
    rw [hasked] at htask ⊢
    rw [Fleet.go, htask]
    exact if_neg hunused
  rw [hgo]
  exact Controller.mem_hosts_begin_attach _ env host

end

/-!
# Sending a body
-/

namespace HostBody

def members (body : HostBody) : List (String × Json.Value) := [
  ("id", (body.id.map Id.toJson).getD .null),
  ("address", .string body.address),
  ("endpoint", .string body.endpoint)]

def request (body : HostBody) : Http.Request :=
  ⟨"POST", "/v1/hosts", [("Content-Type", "application/json")], (Json.Value.object body.members).text⟩

theorem nullable_ofValue (source : Json.Source) (id : Option HostId) :
    nullable Id.decode source (Json.Reading.ofValue ((id.map Id.toJson).getD .null)) = .ok id := by
  cases id with
  | none =>
      rfl
  | some id =>
      have hdecoded := Id.decode_toJson source id
      rw [Id.toJson] at hdecoded
      simp only [Option.map_some, Option.getD_some, Id.toJson, nullable, Json.Reading.ofValue] at hdecoded ⊢
      rw [hdecoded]
      rfl

open Json Fields in
theorem decode_members (source : Source) (body : HostBody) :
    decode source (Reading.ofValue (.object body.members)) = .ok body := by
  apply record_ofValue
  · simp [members, Accepts, Functor.map, Seq.seq, required, Fields.optional, errorOf,
      Decode.string_ofValue, nullable_ofValue]
  · simp [members]
  · simp [Functor.map, Seq.seq, required, Fields.optional, find?, readings, members, Except.map,
      Decode.string_ofValue, nullable_ofValue]

theorem decodeBody_request (body : HostBody) : decodeBody decode body.request = .ok body := by
  have hplain : (Json.Value.object body.members).Plain := by
    cases hid : body.id <;>
      simp [members, hid, Json.Value.Plain, Json.Value.PlainMembers, Id.toJson]
  have hdecoded : Json.decodeText decode body.request.body = .ok body := by
    rw [request, Json.decodeText_text hplain]
    exact decode_members .text body
  have htype : body.request.header? "Content-Type" = some "application/json" := by
    rfl
  have hjson : Http.isJsonType "application/json" = true := by decide
  have htext : Http.isHeaderText "application/json" = true := by decide
  simp [decodeBody, htype, hjson, htext, hdecoded]

end HostBody

/-!
# Accepted endpoints
-/

/-- A registration is accepted exactly if its body can be read, has an address that is not blank, and has an
endpoint that is an HTTP address as it is sent.  The host that is registered then is what the body
describes, and if all registrations come over HTTP, every host of the fleet is what some body of a
request describes. -/
theorem registered_hosts_follow_bodies {token : Option String} {course : List Occurrence}
    (hhttp : ∀ host, .move (.order (.attach host)) ∉ course) (settings : ControlSettings) :
    (∀ c ctx r, r.resource? = some .hosts → r.method = "POST" → Admits token r →
      (∀ response, decodeBody HostBody.decode r = .error response →
        handle token c ctx r = (c, .now response)) ∧
      ∀ body, decodeBody HostBody.decode r = .ok body →
        (body.Acceptable → ∃ host,
          handle token c ctx r = (c, .later (.attach host) hostOutcome) ∧
            body.Describes host ∧ ∀ env, host ∈ (c.begin env (.attach host)).1.hosts) ∧
        (¬ body.Acceptable → ∃ response : Http.Response, response.status = 400 ∧
          handle token c ctx r = (c, .now response))) ∧
    ∀ host ∈ (run token settings course).controller.hosts, ∃ ctx r body,
      .request ctx r ∈ course ∧ Registers ctx r host ∧ decodeBody HostBody.decode r = .ok body ∧
        body.Describes host := by
  refine ⟨?_, ?_⟩
  · intro c ctx r hpath hmethod hadmits
    refine ⟨?_, ?_⟩
    · intro response hunread
      rw [handle_registration hpath hmethod hadmits, attachHost, hunread]
      rfl
    · intro body hbody
      refine ⟨?_, fun hrefused =>
        handle_of_not_acceptable hpath hmethod hadmits hbody hrefused c ctx⟩
      intro hacceptable
      refine ⟨_, handle_of_acceptable hpath hmethod hadmits hbody hacceptable c ctx,
        HostBody.describes_of_acceptable hacceptable _, ?_⟩
      intro env
      exact Controller.mem_hosts_begin_attach c env _
  · intro host hmem
    rcases registered_of_mem_hosts hmem with hbeside | ⟨ctx, r, hasked, hregisters⟩
    · exact absurd hbeside (hhttp host)
    · obtain ⟨body, hbody, hdescribes⟩ := hregisters.describes
      exact ⟨ctx, r, body, hasked, hregisters, hbody, hdescribes⟩

def agentBody : HostBody :=
  ⟨none, " 10.0.0.4 ", "http://10.0.0.4:7070//"⟩

def slashedBody : HostBody :=
  ⟨none, "10.0.0.4", "http://"⟩

def registration (body : HostBody) : List Occurrence :=
  [.request Arena.context body.request, .move (.go 0 Arena.context.toEnv [])]

theorem mem_hosts_registration {body : HostBody} {host : Host}
    (h : handle none Arena.nobody Arena.context body.request =
      (Arena.nobody, .later (.attach host) hostOutcome)) :
    host ∈ (run none Arena.nobody.settings (registration body)).controller.hosts :=
  @mem_hosts_go_ask none Arena.context body.request host (Fleet.fresh Arena.nobody.settings) _ _ h
    Arena.context.toEnv List.not_mem_nil []

theorem registered_hosts_follow_bodies_agent :
    ∃ host, host.address = "10.0.0.4" ∧ host.endpoint = "http://10.0.0.4:7070" ∧
      IsHttp host.endpoint ∧
      handle none Arena.nobody Arena.context agentBody.request =
        (Arena.nobody, .later (.attach host) hostOutcome) ∧
      host ∈ (run none Arena.nobody.settings (registration agentBody)).controller.hosts ∧
      ∃ ctx r body, .request ctx r ∈ registration agentBody ∧ Registers ctx r host ∧
        decodeBody HostBody.decode r = .ok body ∧ body.Describes host := by
  have hadmits : Admits none agentBody.request := fun _ hnone => nomatch hnone
  have hhttp : ∀ host, .move (.order (.attach host)) ∉ registration agentBody := by
    simp [registration]
  have hnames : NamesHost agentBody.endpoint :=
    ⟨"http:", by decide, "10.0.0.4:7070//", by decide, '1', by decide, by decide⟩
  have hacceptable : agentBody.Acceptable := ⟨by decide, isHttp_of_namesHost hnames⟩
  have hbody := agentBody.decodeBody_request
  obtain ⟨hregister, hcame⟩ := registered_hosts_follow_bodies hhttp Arena.nobody.settings
  obtain ⟨host, hhandle, hdescribes, _⟩ := ((hregister Arena.nobody Arena.context agentBody.request
    (by decide) rfl hadmits).right agentBody hbody).left hacceptable
  have hmem := mem_hosts_registration hhandle
  have hsame := hhandle
  rw [handle_of_acceptable (by decide) rfl hadmits hbody hacceptable] at hsame
  cases hsame
  exact ⟨_, by decide, by decide, hdescribes.http.mpr hnames, hhandle, hmem, hcame _ hmem⟩

/-- An endpoint with nothing behind its slashes is accepted, and the scheme alone is registered. -/
theorem bare_scheme_is_registered :
    slashedBody.Acceptable ∧ decodeBody HostBody.decode slashedBody.request = .ok slashedBody ∧
      ∃ host, host.endpoint = "http:" ∧ ¬ IsHttp host.endpoint ∧
        handle none Arena.nobody Arena.context slashedBody.request =
          (Arena.nobody, .later (.attach host) hostOutcome) ∧
        host ∈ (run none Arena.nobody.settings (registration slashedBody)).controller.hosts := by
  have hadmits : Admits none slashedBody.request := fun _ hnone => nomatch hnone
  have hacceptable : slashedBody.Acceptable := ⟨by decide, "http:", by decide, "", by decide⟩
  have hbody := slashedBody.decodeBody_request
  have hhandle := @handle_of_acceptable none slashedBody.request slashedBody (by decide) rfl hadmits
    hbody hacceptable Arena.nobody Arena.context
  have hscheme : Text.dropBack '/' slashedBody.endpoint = "http:" := by decide
  refine ⟨hacceptable, hbody, _, hscheme, ?_, hhandle, mem_hosts_registration hhandle⟩
  rw [hscheme]
  exact not_isHttp_of_mem_schemes (by decide)

end Api
end ServerFleet
