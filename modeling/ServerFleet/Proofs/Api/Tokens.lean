import Mathlib.Data.List.Infix
import ServerFleet.Proofs.Api.Access
import ServerFleet.Settings

/-!
# Configured tokens

A token is taken from the environment as it is, unless it is empty, but a token that is
presented is trimmed before the two are compared.  So a configured token is of use exactly if it
neither starts nor ends with a blank; with any other one every caller is locked out.
-/

namespace ServerFleet

/-!
# Texts without blanks at their ends
-/

namespace Text

def Bare (s : String) : Prop :=
  (∀ c ∈ s.toList.head?, isBlank c = false) ∧ ∀ c ∈ s.toList.getLast?, isBlank c = false

-- The search for an instance may end at the one that tries every character there is.
instance : DecidablePred Bare :=
  fun s => @instDecidableAnd _ _ (Option.decidableForallMem s.toList.head?)
    (Option.decidableForallMem s.toList.getLast?)

theorem trimFront_eq_self_iff {s : List Char} :
    trimFront s = s ↔ ∀ c ∈ s.head?, isBlank c = false := by
  cases s with
  | nil =>
      simp [trimFront]
  | cons c s =>
      cases hblank : isBlank c with
      | false =>
          simp [trimFront_eq_self c s hblank, hblank]
      | true =>
          have hshort : (trimFront (c :: s)).length ≤ s.length := by
            rw [trimFront, List.dropWhile_cons_of_pos hblank]
            exact (List.dropWhile_suffix isBlank).length_le
          have hne : trimFront (c :: s) ≠ c :: s := by
            intro h
            rw [h, List.length_cons] at hshort
            omega
          simp [hne, hblank]

theorem trimBack_eq_self_iff {s : List Char} :
    trimBack s = s ↔ ∀ c ∈ s.getLast?, isBlank c = false := by
  rw [trimBack, List.reverse_eq_iff, trimFront_eq_self_iff, List.head?_reverse]

theorem trim_eq_self_iff {s : String} : trim s = s ↔ Bare s := by
  rw [← String.toList_inj, toList_trim, Bare, ← trimFront_eq_self_iff, ← trimBack_eq_self_iff]
  constructor
  · intro h
    have hsuffix : trimFront s.toList <:+ s.toList := List.dropWhile_suffix isBlank
    have hlong : s.toList.length ≤ (trimFront s.toList).length := by
      have hback : (trimBack (trimFront s.toList)).length ≤ (trimFront s.toList).length := by
        rw [trimBack, List.length_reverse, ← @List.length_reverse _ (trimFront s.toList)]
        exact (List.dropWhile_suffix isBlank).length_le
      rwa [h] at hback
    have hfront := hsuffix.eq_of_length_le hlong
    rw [hfront] at h
    exact ⟨hfront, h⟩
  · rintro ⟨hfront, hback⟩
    rw [hfront, hback]

end Text

namespace Settings

/-- The token that is required is the one in the environment, letter for letter, unless it is empty. -/
theorem apiToken_of_ofLookup {lookup : String → Option String} {random : List UInt8}
    {settings : Settings} (h : ofLookup lookup random = .ok settings) :
    settings.apiToken = nonEmpty lookup "FLEET_API_TOKEN" := by
  simp only [ofLookup, bind, Except.bind, pure, Except.pure] at h
  split at h
  · cases h
  split at h
  · cases h
  split at h
  · cases h
  cases h
  rfl

theorem nonEmpty_eq_some_iff {lookup : String → Option String} {key value : String} :
    nonEmpty lookup key = some value ↔ lookup key = some value ∧ value ≠ "" := by
  simp [nonEmpty, Option.filter_eq_some_iff]

end Settings

namespace Api

/-!
# Presenting a configured token
-/

theorem bare_bearer {token : String} (hfilled : token ≠ "") (hbare : Text.Bare token) :
    Text.Bare ("Bearer " ++ token) := by
  have hlist : token.toList ≠ [] := by
    rw [ne_eq, String.toList_eq_nil_iff]
    exact hfilled
  obtain ⟨_, hlast⟩ := hbare
  refine ⟨?_, ?_⟩
  · intro c hc
    have hletter : 'B' = c := by simpa using hc
    rw [← hletter]
    rfl
  · rw [String.toList_append, List.getLast?_append_of_ne_nil _ hlist]
    exact hlast

theorem carries_bearer {token : String} (hfilled : token ≠ "") (hbare : Text.Bare token) :
    Carries token ("Bearer " ++ token) := by
  refine ⟨token.toList, ?_, ?_⟩
  · rw [Text.trim_eq_self_iff.mpr (bare_bearer hfilled hbare), String.toList_append]
  · rw [String.ofList_toList]
    exact Text.trim_eq_self_iff.mpr hbare

/-- What a header carries is bare, since it has been trimmed. -/
theorem Carries.bare {token value : String} (h : Carries token value) : Text.Bare token := by
  obtain ⟨rest, _, rfl⟩ := h
  exact Text.trim_eq_self_iff.mp (Text.trim_trim _)

theorem isHeaderText_append (s t : String) :
    Http.isHeaderText (s ++ t) = (Http.isHeaderText s && Http.isHeaderText t) := by
  rw [Http.isHeaderText, String.toList_append, List.all_append]
  rfl

theorem presents_bearer {token : String} {r : Http.Request} (hfilled : token ≠ "")
    (hbare : Text.Bare token) (htext : Http.isHeaderText token = true)
    (hheader : r.header? "Authorization" = some ("Bearer " ++ token)) : Presents token r := by
  refine ⟨"Bearer " ++ token, hheader, ?_, carries_bearer hfilled hbare⟩
  rw [isHeaderText_append, htext]
  decide

theorem handle_of_not_presents {token : String} {r : Http.Request} {resource : Resource}
    (hpath : r.resource? = some resource) (hbelow : r.segments.head? = some "v1")
    (hmethod : r.method ≠ "OPTIONS") (h : ¬ Presents token r) :
    ∃ p : Problem, p.status = 401 ∧ ∀ c ctx,
      handle (some token) c ctx r = (c, .now (refusal r p ctx.requestId)) := by
  obtain ⟨p, hstatus, _, hrefused⟩ := authorize_of_not_presents h
  have hclosed : resource.isOpen = false := by
    rw [Bool.eq_false_iff]
    exact fun hopen => (Resource.isOpen_iff hpath).mp hopen hbelow
  refine ⟨p, hstatus, fun c ctx => ?_⟩
  rw [handle_eq hpath hmethod, hclosed, hrefused]
  exact congrArg (Prod.mk c) (to_now r p ctx.requestId)

/-- A token that the environment requires lets a request through that names it after `Bearer `, if the
token is bare; if it is not, every request below `v1` is refused, whatever it presents. -/
theorem configured_token_is_usable_iff_bare {lookup : String → Option String} {random : List UInt8}
    {settings : Settings} {token : String} (hsettings : Settings.ofLookup lookup random = .ok settings)
    (htoken : settings.apiToken = some token) (htext : Http.isHeaderText token = true) :
    (lookup "FLEET_API_TOKEN" = some token ∧ token ≠ "") ∧
    (Text.Bare token → ∀ r resource, r.resource? = some resource → r.method ≠ "OPTIONS" →
      r.header? "Authorization" = some ("Bearer " ++ token) →
      ∀ c ctx, handle settings.apiToken c ctx r = served c ctx resource r) ∧
    (¬ Text.Bare token → ∀ r resource, r.resource? = some resource →
      r.segments.head? = some "v1" → r.method ≠ "OPTIONS" →
      ∃ p : Problem, p.status = 401 ∧ ∀ c ctx,
        handle settings.apiToken c ctx r = (c, .now (refusal r p ctx.requestId))) := by
  have hset : Settings.nonEmpty lookup "FLEET_API_TOKEN" = some token := by
    rw [← Settings.apiToken_of_ofLookup hsettings, htoken]
  obtain ⟨hlookup, hfilled⟩ := Settings.nonEmpty_eq_some_iff.mp hset
  rw [htoken]
  refine ⟨⟨hlookup, hfilled⟩, ?_, ?_⟩
  · intro hbare r resource hpath hmethod hheader c ctx
    have hadmits : Admits (some token) r := by
      intro required hrequired
      rw [← Option.some.inj hrequired]
      exact presents_bearer hfilled hbare htext hheader
    exact handle_of_admits hpath hmethod hadmits c ctx
  · intro hpadded r resource hpath hbelow hmethod
    have hstranger : ¬ Presents token r := by
      rintro ⟨value, _, _, hcarries⟩
      exact hpadded hcarries.bare
    exact handle_of_not_presents hpath hbelow hmethod hstranger

def environment (token : String) (key : String) : Option String :=
  if key = "FLEET_API_TOKEN" then some token else none

def settingsOf (token : String) : Settings where
  listen := .v4 [127, 0, 0, 1] 8080
  logLevel := "info"
  databasePath := "fleet.db"
  reconcileInterval := 5
  agentTimeout := 10
  apiToken := some token
  forwardingSecret := Settings.secretOf []

theorem configured_token_is_usable_iff_bare_s3cret :
    (Text.Bare "s3cret" ∧ ∀ c ctx,
      handle (settingsOf "s3cret").apiToken c ctx (serversRequest "Bearer s3cret") =
        served c ctx .servers (serversRequest "Bearer s3cret")) ∧
    (¬ Text.Bare "s3cret " ∧ ∃ p : Problem, p.status = 401 ∧ ∀ c ctx,
      handle (settingsOf "s3cret ").apiToken c ctx (serversRequest "Bearer s3cret ") =
        (c, .now (refusal (serversRequest "Bearer s3cret ") p ctx.requestId))) := by
  have hbare : Text.Bare "s3cret" := by decide
  have hpadded : ¬ Text.Bare "s3cret " := by decide
  have husable := @configured_token_is_usable_iff_bare (environment "s3cret") []
    (settingsOf "s3cret") "s3cret" (by decide +kernel) rfl (by decide)
  have hlocked := @configured_token_is_usable_iff_bare (environment "s3cret ") []
    (settingsOf "s3cret ") "s3cret " (by decide +kernel) rfl (by decide)
  exact ⟨⟨hbare, husable.2.1 hbare _ _ (by decide) (by decide) (by decide)⟩, hpadded,
    hlocked.2.2 hpadded _ .servers (by decide) (by decide) (by decide)⟩

/-- A token that starts with a blank is required as it is, and nobody can present it. -/
theorem padded_token_locks_out :
    Settings.ofLookup (environment " s3cret") [] = .ok (settingsOf " s3cret") ∧
      (settingsOf " s3cret").apiToken = some " s3cret" ∧
      (∀ c ∈ " s3cret".toList, 0x20 ≤ c.toNat ∧ c.toNat < 0x7f) ∧
      (serversRequest ("Bearer " ++ " s3cret")).resource? = some .servers ∧
      ∀ c ctx, ∃ response : Http.Response, response.status = 401 ∧
        handle (settingsOf " s3cret").apiToken c ctx (serversRequest ("Bearer " ++ " s3cret")) =
          (c, .now response) := by
  refine ⟨by decide +kernel, rfl, by simp, by decide, fun c ctx => ?_⟩
  have hstranger : ¬ Presents " s3cret" (serversRequest ("Bearer " ++ " s3cret")) := by
    rintro ⟨value, _, _, hcarries⟩
    exact absurd hcarries.bare (by decide)
  obtain ⟨p, hstatus, hrefused⟩ := @handle_of_not_presents " s3cret"
    (serversRequest ("Bearer " ++ " s3cret")) .servers (by decide) (by decide) (by decide) hstranger
  exact ⟨refusal _ p ctx.requestId, (status_refusal _ p _).trans hstatus, hrefused c ctx⟩

end Api
end ServerFleet
