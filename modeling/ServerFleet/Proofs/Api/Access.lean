import Mathlib.Data.List.TakeWhile
import ServerFleet.Api.Handler
import ServerFleet.Simulation.Surface

/-!
# Access to the interface

A request is let through if its path is open to everybody or if it presents the token that
is required.  Any other request is refused before its handler is reached: the answer
depends on nothing but the request, the controller stays as it is, and no agent is asked.
-/

namespace ServerFleet

/-!
# Trimmed texts
-/

namespace Text

theorem trimFront_eq_nil_iff {s : List Char} : trimFront s = [] ↔ ∀ c ∈ s, isBlank c = true :=
  List.dropWhile_eq_nil_iff

theorem trimBack_eq_nil_iff {s : List Char} : trimBack s = [] ↔ ∀ c ∈ s, isBlank c = true := by
  rw [trimBack, List.reverse_eq_nil_iff, trimFront_eq_nil_iff]
  simp

theorem toList_trim (s : String) : (trim s).toList = trimBack (trimFront s.toList) := by
  rw [trim, String.toList_ofList]

theorem isBlank_of_trim_isEmpty {s : String} (h : (trim s).isEmpty = true) :
    ∀ c ∈ s.toList, isBlank c = true := by
  have hnil : trimBack (trimFront s.toList) = [] := by
    rw [← toList_trim, String.toList_eq_nil_iff]
    exact String.isEmpty_iff.mp h
  rcases trimFront_head s.toList with hfront | ⟨c, rest, hfront, hc⟩
  · exact trimFront_eq_nil_iff.mp hfront
  · rw [hfront] at hnil
    have hblank := trimBack_eq_nil_iff.mp hnil c List.mem_cons_self
    rw [hc] at hblank
    cases hblank

theorem not_isBlank_of_trim {s : String} {front : List Char} {c : Char}
    (h : (trim s).toList = front ++ [c]) : isBlank c = false := by
  have hback : trimBack (trim s).toList = (trim s).toList := by
    rw [toList_trim, trimBack_trimBack]
  have hreverse : trimFront (trim s).toList.reverse = (trim s).toList.reverse := by
    rw [← List.reverse_inj, List.reverse_reverse]
    exact hback
  rw [h, List.reverse_append, List.reverse_singleton, List.singleton_append] at hreverse
  rcases trimFront_head (c :: front.reverse) with hnil | ⟨d, rest, hcons, hd⟩
  · rw [hreverse] at hnil
    cases hnil
  · rw [hreverse] at hcons
    rw [(List.cons.inj hcons).left]
    exact hd

theorem trim_behind_blank {s : String} {front rest : List Char}
    (h : (trim s).toList = front ++ ' ' :: rest) : (trim (String.ofList rest)).isEmpty = false := by
  rw [Bool.eq_false_iff]
  intro hempty
  have hblank := isBlank_of_trim_isEmpty hempty
  rw [String.toList_ofList] at hblank
  rcases List.eq_nil_or_concat rest with rfl | ⟨init, c, rfl⟩
  · have hlast := not_isBlank_of_trim h
    exact absurd hlast (by decide)
  · have hlast : isBlank c = false := by
      have hsplit : (trim s).toList = (front ++ ' ' :: init) ++ [c] := by
        rw [h, List.concat_eq_append, List.append_assoc, List.cons_append]
      exact not_isBlank_of_trim hsplit
    rw [hblank c (by simp)] at hlast
    cases hlast

end Text

/-!
# Requests
-/

namespace Http

def Request.segments (r : Request) : List String :=
  (Target.ofText r.target).segments

def Request.resource? (r : Request) : Option Api.Resource :=
  Api.Resource.ofSegments? r.segments

def Request.verb (r : Request) : String :=
  if r.method = "HEAD" then "GET" else r.method

end Http

namespace Api

theorem Resource.isOpen_iff {segments : List String} {resource : Resource}
    (h : ofSegments? segments = some resource) :
    resource.isOpen = true ↔ segments.head? ≠ some "v1" := by
  revert h
  fun_cases ofSegments? segments <;> grind [isOpen]

/-- A text in a header carries a token: it is `Bearer`, a blank and the token, with any blanks around the
token and around the whole. -/
def Carries (token value : String) : Prop :=
  ∃ rest, (Text.trim value).toList = "Bearer ".toList ++ rest ∧ Text.trim (String.ofList rest) = token

def Presents (token : String) (r : Http.Request) : Prop :=
  ∃ value, r.header? "Authorization" = some value ∧ Http.isHeaderText value = true ∧
    Carries token value

theorem behind?_eq_some_iff {lead s rest : List Char} :
    behind? lead s = some rest ↔ s = lead ++ rest := by
  induction lead generalizing s with
  | nil =>
      simp [behind?]
  | cons c lead ih =>
      cases s with
      | nil =>
          simp [behind?]
      | cons d s =>
          rw [behind?, List.cons_append, List.cons.injEq]
          split
          next hsame =>
            simp [ih, hsame]
          next hother =>
            simp [Ne.symm hother]

/-- A token that a header carries is never empty, so that the check for an empty one refuses nobody. -/
theorem bearerToken_eq_ok_iff {header : Option String} {token : String} :
    bearerToken header = .ok token ↔
      ∃ value, header = some value ∧ Http.isHeaderText value = true ∧ Carries token value := by
  cases header with
  | none =>
      simp [bearerToken]
  | some value =>
      rw [bearerToken]
      cases htext : Http.isHeaderText value with
      | false =>
          simp [htext]
      | true =>
          cases hbehind : behind? "Bearer ".toList (Text.trim value).toList with
          | none =>
              have hnone : ¬ Carries token value := by
                rintro ⟨rest, hrest, _⟩
                rw [behind?_eq_some_iff.mpr hrest] at hbehind
                cases hbehind
              simp [htext, hnone]
          | some rest =>
              have hrest := behind?_eq_some_iff.mp hbehind
              -- The header is trimmed, so that a blank within it has something behind it.
              have hfilled : (Text.trim (String.ofList rest)).isEmpty = false :=
                @Text.trim_behind_blank value "Bearer".toList rest hrest
              have hcarries : Carries token value ↔ Text.trim (String.ofList rest) = token := by
                constructor
                · rintro ⟨other, hother, htoken⟩
                  rw [hrest] at hother
                  rw [List.append_cancel_left hother]
                  exact htoken
                · intro htoken
                  exact ⟨rest, hrest, htoken⟩
              simp [htext, hfilled, hcarries]

/-!
# Letting through and refusing
-/

def Admits (required : Option String) (r : Http.Request) : Prop :=
  ∀ token, required = some token → Presents token r

theorem authorize_of_admits {required : Option String} {r : Http.Request} (h : Admits required r)
    (id : RequestId) : authorize required id r = .ok () := by
  cases required with
  | none =>
      rfl
  | some token =>
      have htoken := bearerToken_eq_ok_iff.mpr (h token rfl)
      simp [authorize, htoken]

theorem authorize_of_not_presents {token : String} {r : Http.Request} (h : ¬ Presents token r) :
    ∃ p : Problem, p.status = 401 ∧ p.requestId = none ∧
      ∀ id, authorize (some token) id r = .error (p.withRequest id.text) := by
  cases htoken : bearerToken (r.header? "Authorization") with
  | error reason =>
      exact ⟨.unauthorized "unauthorized" reason, rfl, rfl, fun id => by simp [authorize, htoken]⟩
  | ok other =>
      have hother : other ≠ token := by
        intro hsame
        exact h (bearerToken_eq_ok_iff.mp (hsame ▸ htoken))
      exact ⟨.unauthorized "invalid_token" "bearer token is not valid", rfl, rfl,
        fun id => by simp [authorize, htoken, hother]⟩

/-- A reply as the method of a request allows it. -/
def Reply.to (r : Http.Request) (reply : Reply) : Reply :=
  if r.method = "HEAD" then reply.withoutBody else reply

def refusal (r : Http.Request) (p : Problem) (id : RequestId) : Http.Response :=
  if r.method = "HEAD" then (p.withRequest id.text).response.withoutBody
  else (p.withRequest id.text).response

theorem status_refusal (r : Http.Request) (p : Problem) (id : RequestId) :
    (refusal r p id).status = p.status := by
  rw [refusal]
  split <;> rfl

def served (c : Controller) (ctx : Context) (resource : Resource) (r : Http.Request) :
    Controller × Reply :=
  let (c, reply) := dispatch c ctx resource r.verb (Http.Target.ofText r.target).query r
  (c, reply.to r)

theorem handle_eq {token : Option String} {r : Http.Request} {resource : Resource}
    (hpath : r.resource? = some resource) (hmethod : r.method ≠ "OPTIONS") (c : Controller)
    (ctx : Context) :
    handle token c ctx r =
      if resource.isOpen then served c ctx resource r
      else
        match authorize token ctx.requestId r with
        | .ok () => served c ctx resource r
        | .error p => (c, (Reply.now p.response).to r) := by
  have hfound : Resource.ofSegments? (Http.Target.ofText r.target).segments = some resource := hpath
  simp only [handle, hmethod, if_false, answer, hfound]
  cases resource.isOpen with
  | true =>
      rfl
  | false =>
      cases authorize token ctx.requestId r <;> rfl

theorem handle_of_admits {token : Option String} {r : Http.Request} {resource : Resource}
    (hpath : r.resource? = some resource) (hmethod : r.method ≠ "OPTIONS") (h : Admits token r)
    (c : Controller) (ctx : Context) : handle token c ctx r = served c ctx resource r := by
  rw [handle_eq hpath hmethod, authorize_of_admits h]
  exact ite_self _

theorem to_now (r : Http.Request) (p : Problem) (id : RequestId) :
    (Reply.now (p.withRequest id.text).response).to r = .now (refusal r p id) := by
  rw [Reply.to, refusal]
  split <;> rfl

end Api

/-!
# Runs

A refusal seen from a run: every controller is as it was, and no agent is called.
-/

namespace Simulation

theorem World.controller?_keep {w : World} {owner : Nat} {c : Controller}
    (h : w.controller? owner = some c) (other : Nat) :
    (w.keep owner c).controller? other = w.controller? other := by
  obtain ⟨d, hd, rfl⟩ := Option.map_eq_some_iff.mp h
  have hbound := (Array.getElem?_eq_some_iff.mp hd).choose
  by_cases hsame : owner = other
  · rw [← hsame, h]
    simp [controller?, keep, hbound]
  · simp [controller?, keep, hsame]

/-- A request that is answered at once and changes nothing leaves a run as it is, but for the identifier
that it has used up. -/
theorem World.request_of_unchanged {w : World} {token : Option String} {r : Http.Request}
    {response : Api.Context → Http.Response}
    (h : ∀ c ctx, Api.handle token c ctx r = (c, .now (response ctx))) :
    (w.request token r).1.calls = w.calls ∧ (w.request token r).1.tasks = w.tasks ∧
      (w.request token r).1.streams = w.streams ∧
      ∀ owner, (w.request token r).1.controller? owner = w.controller? owner := by
  cases hcontroller : w.controller? w.current with
  | none =>
      simp [request, step, hcontroller]
  | some c =>
      have hkept := World.controller?_keep (w := { w with minted := w.minted + 1 }) hcontroller
      simp only [request, step, hcontroller, Option.map_some, h]
      exact ⟨rfl, rfl, rfl, hkept⟩

end Simulation

namespace Api

/-!
# Who acts and learns
-/

/-- Who does not present the token can neither act nor learn. -/
theorem requests_without_token_learn_nothing {token : String} {r : Http.Request}
    {resource : Resource} (hpath : r.resource? = some resource) (hmethod : r.method ≠ "OPTIONS") :
    (r.segments.head? = some "v1" → ¬ Presents token r →
      (∃ p : Problem, p.requestId = none ∧ ∀ c ctx,
        handle (some token) c ctx r = (c, .now (refusal r p ctx.requestId)) ∧
          (refusal r p ctx.requestId).status = 401) ∧
      ∀ w : Simulation.World,
        (w.request (some token) r).1.calls = w.calls ∧
          (w.request (some token) r).1.tasks = w.tasks ∧
          (w.request (some token) r).1.streams = w.streams ∧
          ∀ owner, (w.request (some token) r).1.controller? owner = w.controller? owner) ∧
    (r.segments.head? ≠ some "v1" ∨ Presents token r → ∀ c ctx,
      handle (some token) c ctx r = served c ctx resource r) := by
  have hopen := Resource.isOpen_iff hpath
  refine ⟨fun hbelow hstranger => ?_, fun hpass c ctx => ?_⟩
  · have hclosed : resource.isOpen = false := by
      rw [Bool.eq_false_iff]
      exact fun h => hopen.mp h hbelow
    obtain ⟨p, hstatus, hbare, hrefused⟩ := authorize_of_not_presents hstranger
    have hhandle : ∀ c ctx,
        handle (some token) c ctx r = (c, .now (refusal r p ctx.requestId)) := by
      intro c ctx
      rw [handle_eq hpath hmethod, hclosed, hrefused]
      exact congrArg (Prod.mk c) (to_now r p ctx.requestId)
    refine ⟨⟨p, hbare, fun c ctx => ⟨hhandle c ctx, ?_⟩⟩, fun w => ?_⟩
    · rw [status_refusal, hstatus]
    · exact Simulation.World.request_of_unchanged hhandle
  · cases hpass with
    | inl hhealth =>
        rw [handle_eq hpath hmethod, if_pos (hopen.mpr hhealth)]
    | inr hpresents =>
        have hadmits : Admits (some token) r := by
          intro required hrequired
          rw [← Option.some.inj hrequired]
          exact hpresents
        exact handle_of_admits hpath hmethod hadmits c ctx

def serversRequest (value : String) : Http.Request :=
  ⟨"GET", "/v1/servers", [("Authorization", value)], ""⟩

theorem requests_without_token_learn_nothing_servers :
    ((serversRequest "Basic t0ken").segments.head? = some "v1" ∧
      ¬ Presents "t0ken" (serversRequest "Basic t0ken") ∧
      ∀ w : Simulation.World,
        (w.request (some "t0ken") (serversRequest "Basic t0ken")).1.calls = w.calls) ∧
    (Presents "t0ken" (serversRequest " Bearer  t0ken") ∧ ∀ c ctx,
      handle (some "t0ken") c ctx (serversRequest " Bearer  t0ken") =
        served c ctx .servers (serversRequest " Bearer  t0ken")) := by
  have hstranger : ¬ Presents "t0ken" (serversRequest "Basic t0ken") := by
    rintro ⟨value, hvalue, htext, hcarries⟩
    have htoken : bearerToken (some "Basic t0ken") = .ok "t0ken" :=
      bearerToken_eq_ok_iff.mpr ⟨value, hvalue, htext, hcarries⟩
    exact absurd htoken (by decide)
  have hpresents : Presents "t0ken" (serversRequest " Bearer  t0ken") :=
    ⟨" Bearer  t0ken", by decide, by decide, " t0ken".toList, by decide, by decide⟩
  have hrefuse := @requests_without_token_learn_nothing "t0ken" (serversRequest "Basic t0ken")
    .servers (by decide) (by decide)
  have hpass := @requests_without_token_learn_nothing "t0ken" (serversRequest " Bearer  t0ken")
    .servers (by decide) (by decide)
  have hbelow : (serversRequest "Basic t0ken").segments.head? = some "v1" := by decide
  exact ⟨⟨hbelow, hstranger, fun w => ((hrefuse.1 hbelow hstranger).2 w).1⟩, hpresents,
    hpass.2 (.inr hpresents)⟩

/-- A header that carries the right token is refused all the same if it is not visible ASCII text. -/
theorem right_token_can_be_refused :
    (serversRequest "Bearer tökén").resource? = some .servers ∧
      (serversRequest "Bearer tökén").header? "Authorization" = some "Bearer tökén" ∧
      Carries "tökén" "Bearer tökén" ∧
      ∀ c ctx,
        (∃ response : Http.Response, response.status = 401 ∧
          (handle (some "tökén") c ctx (serversRequest "Bearer tökén")).2 = .now response) ∧
        ∃ response : Http.Response, response.status = 200 ∧
          (served c ctx .servers (serversRequest "Bearer tökén")).2 = .now response := by
  refine ⟨by decide, by decide, ⟨"tökén".toList, by decide, by decide⟩, fun c ctx => ⟨?_, ?_⟩⟩
  · refine ⟨((Problem.unauthorized "unauthorized"
      "Authorization header is not valid text").withRequest ctx.requestId.text).response, rfl, ?_⟩
    have hpath : (serversRequest "Bearer tökén").resource? = some .servers := by decide
    rw [handle_eq hpath (by decide)]
    rfl
  · exact ⟨.json 200 (listJson Server.toJson c.store.all), rfl, rfl⟩

end Api
end ServerFleet
