import ServerFleet.Proofs.Fleet.Lives
import ServerFleet.Proofs.Fleet.Replay

/-!
# Properties that are overridden

A host that answers for a server has the say in its properties.  So an override that was
acknowledged lasts until an answer is taken over for which the host was asked before;
then the property is what it was in the record that was sent.  Answers for which a host
is asked later do no harm if they repeat what was sent.
-/

namespace ServerFleet

/-!
# Properties
-/

theorem find?_insertEntry_self (key value : String) (entries : List (String × String)) :
    (insertEntry key value entries).find? (fun e => e.1 == key) = some (key, value) := by
  induction entries with
  | nil =>
      simp [insertEntry]
  | cons e rest ih =>
      rw [insertEntry]
      split
      next =>
        simp
      next =>
        split
        next =>
          simp
        next hne =>
          rw [List.find?_cons_of_neg, ih]
          rw [beq_iff_eq]
          exact Ne.symm hne

theorem find?_insertEntry_of_ne {key other : String} (hne : other ≠ key) (value : String)
    (entries : List (String × String)) :
    (insertEntry key value entries).find? (fun e => e.1 == other) =
      entries.find? fun e => e.1 == other := by
  induction entries with
  | nil =>
      simp [insertEntry, Ne.symm hne]
  | cons e rest ih =>
      rw [insertEntry]
      split
      next =>
        simp [Ne.symm hne]
      next =>
        split
        next hsame =>
          rw [hsame] at hne
          simp [hsame, Ne.symm hne]
        next =>
          rw [List.find?_cons, List.find?_cons, ih]

namespace Properties

theorem get?_insert_self (key value : String) (p : Properties) :
    (p.insert key value).get? key = some value := by
  rw [get?, insert, find?_insertEntry_self]
  rfl

theorem get?_insert_of_ne {key other : String} (hne : other ≠ key) (value : String) (p : Properties) :
    (p.insert key value).get? other = p.get? other := by
  rw [get?, insert, find?_insertEntry_of_ne hne, ← get?]

end Properties

theorem Server.properties_of_bind {ours merged : Server} {answer : Answer} {now : Time.Instant}
    (h : (answer.bind fun theirs => ours.merge theirs now) = .ok merged) :
    ∃ theirs, answer = .ok theirs ∧ theirs.id = ours.id ∧ merged.properties = theirs.properties := by
  cases answer with
  | error e =>
      cases h
  | ok theirs =>
      rw [Except.bind, merge] at h
      split at h
      next =>
        cases h
      next hid =>
        cases h
        exact ⟨theirs, rfl, not_not.mp hid, rfl⟩

theorem Controller.update_eq_ok {c c' : Controller} {env : Env} {id : ServerId}
    {change : Server → Server} {after : Server} (h : c.update env id change = (c', .ok after)) :
    ∃ before, c.store.get? id = some before ∧ after = { change before with updatedAt := env.now } := by
  rw [update] at h
  cases hget : c.store.get? id with
  | none =>
      rw [hget] at h
      cases h
  | some before =>
      rw [hget] at h
      simp only at h
      split at h
      next =>
        cases h
      next =>
        cases h
      next =>
        cases h
        exact ⟨before, rfl, rfl⟩

def Job.sent : Job → List Server
  | .start (.launching l) => [l.provisional]
  | .start (.undoing _) => []
  | .stop _ => []
  | .attach sweep => sweep.owned

def Edit.answered? : Edit → Option Server
  | .commit m _ => some m
  | .refresh m => some m
  | _ => none

namespace Fleet

def Asks (w : Fleet) (t : Nat) (s : Server) : Prop :=
  ∃ order job, w.tasks t = some ⟨order, .asking job⟩ ∧ s ∈ job.sent

/-- A move has the answer about a server taken over: it commits the launch, or refreshes the record. -/
def TakesOver (w : Fleet) (move : Move) (id : ServerId) : Prop :=
  w.Commits move id ∨ w.Refreshes move id

def Echoes (w : Fleet) (move : Move) (id : ServerId) (key : String) : Prop :=
  ∀ t env replies order job s reply theirs, move = .go t env replies →
    w.tasks t = some ⟨order, .asking job⟩ → (s, reply) ∈ job.sent.zip replies → s.id = id →
    reply.answer = .ok theirs → theirs.id = id →
    theirs.properties.get? key = s.properties.get? key

variable {w w' : Fleet} {move : Move} {now : Time.Instant} {es : List Edit} {id : ServerId}
  {key : String} {t : Nat} {s : Server}

/-!
# Records that were sent
-/

theorem Sound.eq_of_asks (h : w.Sound) {s' : Server} (hs : w.Asks t s) (hs' : w.Asks t s')
    (hid : s.id = s'.id) : s = s' := by
  rcases hs with ⟨order, job, htask, hs⟩
  rcases hs' with ⟨order', job', htask', hs'⟩
  rw [htask] at htask'
  cases htask'
  cases job with
  | start work =>
      cases work with
      | launching l =>
          exact (List.mem_singleton.mp hs).trans (List.mem_singleton.mp hs').symm
      | undoing u =>
          cases hs
  | stop k =>
      cases hs
  | attach sweep =>
      have hfits : (Job.attach sweep).Fits w.books := h.fits t _ htask
      exact List.inj_on_of_nodup_map hfits.left hs hs' hid

theorem begins_sent {c : Controller} {env : Env} {order order' : Order} {p : Progress Job Outcome}
    {job : Job} (h : c.Begins env order es p)
    (hstage : (⟨order, p.stage⟩ : Task) = ⟨order', .asking job⟩) (hs : s ∈ job.sent) :
    s.id = env.serverId ∨ s ∈ c.store.index := by
  cases h with
  | placed _ _ _ =>
      cases hstage
      rw [List.mem_singleton.mp hs]
      exact Or.inl rfl
  | sweeping =>
      cases hstage
      exact Or.inr (Store.mem_byHost.mp (List.mem_filter.mp hs).left).left
  | stopping _ _ _ =>
      cases hstage
      cases hs
  | startRefused _ | stopRefused _ | attached =>
      cases hstage

theorem resumes_sent {c : Controller} {env : Env} {job job' : Job} {replies : List Reply}
    {p : Progress Job Outcome} {order order' : Order} (h : c.Resumes env job replies es p)
    (hstage : (⟨order, p.stage⟩ : Task) = ⟨order', .asking job'⟩) : job'.sent = [] := by
  cases h with
  | uncommitted _ _ =>
      cases hstage
      rfl
  | committed _ | failed _ _ | failedKept _ _ | undone _ _ | undoneKept _ _ | stopFailed _
  | stopped _ _ | swept _ =>
      cases hstage

theorem Goes.asks (hgoes : w.Goes move now es w') (hasks : w'.Asks t s) :
    w.Asks t s ∨ s.id ∉ w.placed.map Identity.id ∨ s ∈ w.controller.store.index := by
  rcases hasks with ⟨order, job, htask, hs⟩
  cases hgoes with
  | still _ _ htasks =>
      rcases htasks t with hsame | ⟨_, _, hordered⟩
      · exact Or.inl ⟨order, job, hsame ▸ htask, hs⟩
      · rw [hordered] at htask
        cases htask
  | weather =>
      exact Or.inl ⟨order, job, htask, hs⟩
  | restart =>
      cases htask
  | override _ _ _ =>
      exact Or.inl ⟨order, job, htask, hs⟩
  | @begin t' _ _ _ _ _ _ hold hfresh _ hbegins _ =>
      by_cases ht : t = t'
      · rw [ht, tasks_advance, Function.update_self] at htask
        rcases begins_sent hbegins (Option.some.inj htask) hs with hid | hmem
        · exact Or.inr (Or.inl (hid ▸ hfresh))
        · exact Or.inr (Or.inr hmem)
      · rw [tasks_advance, Function.update_of_ne ht] at htask
        exact Or.inl ⟨order, job, htask, hs⟩
  | @resume t' _ _ _ _ _ _ _ hold _ _ hresumes _ =>
      by_cases ht : t = t'
      · rw [ht, tasks_advance, Function.update_self] at htask
        rw [resumes_sent hresumes (Option.some.inj htask)] at hs
        cases hs
      · rw [tasks_advance, Function.update_of_ne ht] at htask
        exact Or.inl ⟨order, job, htask, hs⟩

/-!
# Answers that are taken over
-/

theorem Goes.of_answered? (hgoes : w.Goes move now es (w.step move)) (h : w.Sound) {e : Edit}
    (he : e ∈ es) {m : Server} (hm : e.answered? = some m) (hechoes : w.Echoes move m.id key) :
    w.TakesOver move m.id ∧ ∃ t env replies s, move = .go t env replies ∧ w.Asks t s ∧
      s.id = m.id ∧ m.properties.get? key = s.properties.get? key := by
  cases hgoes.makes h he with
  | @committed t order env replies l m' hold hmerged _ =>
      cases hm
      refine ⟨Or.inl ((hgoes.exists_committed_iff h).mp ⟨_, he, rfl⟩), t, env, replies, l.provisional,
        rfl, ⟨_, _, hold, List.mem_singleton.mpr rfl⟩, ?_⟩
      have hid : l.provisional.id = m.id :=
        (Server.id_of_identity (Server.identity_of_bind hmerged)).symm
      rcases Server.properties_of_bind hmerged with ⟨theirs, hanswer, htheirs, hproperties⟩
      cases replies with
      | nil =>
          cases hanswer
      | cons reply rest =>
          refine ⟨hid, ?_⟩
          rw [hproperties]
          exact hechoes t env _ _ _ l.provisional reply theirs rfl hold List.mem_cons_self hid hanswer
            (htheirs.trans hid)
  | @refreshed t env replies sweep report s m' reply hold hpair hmerged _ _ =>
      cases hm
      have hid : s.id = m.id := (Server.id_of_identity (Server.identity_of_merged hmerged)).symm
      rcases Server.properties_of_bind hmerged with ⟨theirs, hanswer, htheirs, hproperties⟩
      refine ⟨Or.inr ((hgoes.exists_refreshed_iff h).mp ⟨m, he, rfl⟩), t, env, replies, s, rfl,
        ⟨_, _, hold, (List.of_mem_zip hpair).left⟩, hid, ?_⟩
      rw [hproperties]
      exact hechoes t env _ _ _ s reply theirs rfl hold hpair hid hanswer (htheirs.trans hid)
  | placed _ | withdrawn _ _ | landed _ _ | stopped _ | purged _ | overridden _ _ =>
      cases hm

theorem Goes.answered?_of_takesOver (hgoes : w.Goes move now es (w.step move)) (h : w.Sound)
    (htakes : w.TakesOver move id) : ∃ e ∈ es, ∃ m, e.answered? = some m ∧ m.id = id := by
  rcases htakes with hcommits | hrefreshes
  · rcases (hgoes.exists_committed_iff h).mpr hcommits with ⟨e, he, hid⟩
    cases e with
    | commit m cause =>
        exact ⟨_, he, m, rfl, Option.some.inj hid⟩
    | place _ | withdraw _ | land _ | refresh _ | override _ _ | remove _ _ =>
        cases hid
  · rcases (hgoes.exists_refreshed_iff h).mpr hrefreshes with ⟨m, hm, hid⟩
    exact ⟨_, hm, m, rfl, hid⟩

theorem Sound.stored_of_takesOver (h : w.Sound) {env : Env} {replies : List Reply}
    (htakes : w.TakesOver (.go t env replies) id) (hechoes : w.Echoes (.go t env replies) id key)
    (hasks : w.Asks t s) (hid : s.id = id) :
    ∃ r, (w.step (.go t env replies)).controller.store.get? id = some r ∧
      r.properties.get? key = s.properties.get? key := by
  rcases h.goes (.go t env replies) with ⟨now, es, hgoes⟩
  rcases hgoes.answered?_of_takesOver h htakes with ⟨e, he, m, hm, rfl⟩
  rcases hgoes.of_answered? h he hm hechoes with ⟨_, t', env', replies', s', hmove, hasks', hid', hkept⟩
  cases hmove
  have hsame : s = s' := h.eq_of_asks hasks hasks' (hid.trans hid'.symm)
  refine ⟨m, ?_, hsame ▸ hkept⟩
  have hleft := hgoes.get?_of_mem h he
  cases e with
  | commit m' cause =>
      cases hm
      exact hleft
  | refresh m' =>
      cases hm
      exact hleft
  | place _ | withdraw _ | land _ | override _ _ | remove _ _ =>
      cases hm

/-!
# After an override
-/

/-- The values that a property of a server may have: the stored record has one of them, and so has every
record that was sent, but for those that were sent early. -/
structure Confined (w : Fleet) (id : ServerId) (key : String) (early : Nat → Server → Prop)
    (allowed : Option String → Prop) : Prop where
  placed : id ∈ w.placed.map Identity.id
  stored : ∀ s, w.controller.store.get? id = some s → allowed (s.properties.get? key)
  sent : ∀ t s, w.Asks t s → s.id = id → allowed (s.properties.get? key) ∨ early t s

theorem id_of_change? {env : Env} {change : Server → Server}
    (hmove : move.change? = some (env, id, change)) (s : Server) : (change s).id = s.id := by
  cases move with
  | setState _ _ _ | setProperty _ _ _ _ =>
      cases hmove
      rfl
  | order _ | stopNumber _ _ _ | orderPass | go _ _ _ | goPass _ | weather _ _ _ | restart _ =>
      cases hmove

theorem get?_of_change? {env : Env} {change : Server → Server}
    (hmove : move.change? = some (env, id, change))
    (hkey : ∀ env value, move ≠ .setProperty env id key value) (s : Server) :
    (change s).properties.get? key = s.properties.get? key := by
  cases move with
  | setState env' id' state =>
      cases hmove
      rfl
  | setProperty env' id' key' value =>
      cases hmove
      refine Properties.get?_insert_of_ne ?_ _ _
      intro hsame
      exact hkey env value (hsame ▸ rfl)
  | order _ | stopNumber _ _ _ | orderPass | go _ _ _ | goPass _ | weather _ _ _ | restart _ =>
      cases hmove

variable {early : Nat → Server → Prop} {allowed : Option String → Prop}

theorem Confined.allowed_left (hw : w.Confined id key early allowed) (h : w.Sound)
    (hgoes : w.Goes move now es (w.step move))
    (hkey : ∀ env value, move ≠ .setProperty env id key value)
    (hechoes : w.Echoes move id key)
    (htaken : ∀ t env replies s, move = .go t env replies → w.TakesOver move id → w.Asks t s →
      s.id = id → early t s → allowed (s.properties.get? key))
    {e : Edit} (he : e ∈ es) (hid : e.id = id) {r : Server}
    (hleft : e.left? (w.controller.store.get? id) = some r) : allowed (r.properties.get? key) := by
  have hanswered {m : Server} (hm : e.answered? = some m) (hsame : m.id = id) :
      allowed (m.properties.get? key) := by
    subst hsame
    rcases hgoes.of_answered? h he hm hechoes with
      ⟨htakes, t, env, replies, s, hmove, hasks, hs, hkept⟩
    rw [hkept]
    rcases hw.sent t s hasks hs with hallowed | hearly
    · exact hallowed
    · exact htaken t env replies s hmove htakes hasks hs hearly
  cases e with
  | place s =>
      cases hgoes.makes h he with
      | placed _ hfresh =>
          exact absurd hw.placed (hid ▸ hfresh)
  | commit m cause =>
      cases hleft
      exact hanswered rfl hid
  | refresh m =>
      cases hleft
      exact hanswered rfl hid
  | withdraw _ | remove _ _ =>
      cases hleft
  | land landed =>
      exact hw.stored r hleft
  | override before after =>
      cases hleft
      cases hgoes.makes h he with
      | overridden hmove hupdate =>
          rcases Controller.update_eq_ok hupdate with ⟨s, hs, rfl⟩
          have hown := (id_of_change? hmove s).symm.trans hid
          cases (Store.mem_of_get? hs).right.symm.trans hown
          rw [get?_of_change? hmove hkey]
          exact hw.stored s hs

theorem Confined.step (hw : w.Confined id key early allowed) (h : w.Sound)
    (hkey : ∀ env value, move ≠ .setProperty env id key value) (hechoes : w.Echoes move id key)
    (htaken : ∀ t env replies s, move = .go t env replies → w.TakesOver move id → w.Asks t s →
      s.id = id → early t s → allowed (s.properties.get? key)) :
    (w.step move).Confined id key early allowed := by
  rcases h.goes move with ⟨now, es, hgoes⟩
  constructor
  case placed =>
    exact hgoes.mem_placed_ids hw.placed
  case stored =>
    intro r hr
    by_cases hedited : ∃ e ∈ es, e.id = id
    · rcases hedited with ⟨e, he, hid⟩
      refine hw.allowed_left h hgoes hkey hechoes htaken he hid ?_
      have hleft := hgoes.get?_of_mem h he
      rw [hid] at hleft
      exact hleft.symm.trans hr
    · have hothers : ∀ e ∈ es, e.id ≠ id := fun e he hid => hedited ⟨e, he, hid⟩
      rw [hgoes.get?_eq h hothers] at hr
      exact hw.stored r hr
  case sent =>
    intro t s hasks hid
    rcases hgoes.asks hasks with hold | hnew | hstored
    · exact hw.sent t s hold hid
    · exact absurd hw.placed (hid ▸ hnew)
    · exact Or.inl (hw.stored s (h.books.store.get?_eq_some_iff.mpr ⟨hstored, hid⟩))

theorem Confined.foldl (moves : List Move) (hw : w.Confined id key early allowed) (h : w.Sound)
    (hkey : ∀ env value, .setProperty env id key value ∉ moves)
    (hechoes : ∀ before move after, moves = before ++ move :: after →
      (before.foldl Fleet.step w).Echoes move id key)
    (htaken : ∀ before t env replies after s, moves = before ++ .go t env replies :: after →
      (before.foldl Fleet.step w).TakesOver (.go t env replies) id →
      s.id = id → early t s → allowed (s.properties.get? key)) :
    (moves.foldl Fleet.step w).Confined id key early allowed := by
  induction moves generalizing w with
  | nil =>
      exact hw
  | cons move rest ih =>
      have hstep := hw.step h
        (fun env value hmove => hkey env value (hmove ▸ List.mem_cons_self))
        (hechoes [] move rest rfl)
        (by
          intro t env replies s hmove htakes _ hid hearly
          subst hmove
          exact htaken [] t env replies rest s rfl htakes hid hearly)
      refine ih hstep (h.step move)
        (fun env value hmem => hkey env value (List.mem_cons_of_mem _ hmem)) ?_ ?_
      · intro before later after hrest
        exact hechoes (move :: before) later after (by rw [hrest]; rfl)
      · intro before t env replies after s hrest
        exact htaken (move :: before) t env replies after s (by rw [hrest]; rfl)

theorem Sound.confined_setProperty (h : w.Sound) {env : Env} {value : String} {after : Server}
    (hacknowledged : (w.controller.setProperty env id key value).2 = .ok after)
    (allowed : Option String → Prop) (hallowed : allowed (some value)) :
    (w.step (.setProperty env id key value)).Confined id key w.Asks allowed := by
  have hchange (s : Server) :
      ({ s with properties := s.properties.insert key value } : Server).identity = s.identity :=
    rfl
  rcases Controller.update_cases env h.books id hchange with
    ⟨e, hupdate, _⟩ | ⟨before, after', c', hupdate, hid, hfits, hbooks⟩
  · rw [Controller.setProperty, hupdate] at hacknowledged
    cases hacknowledged
  · have hstep : (w.step (.setProperty env id key value)) = { w with controller := c' } := by
      rw [Fleet.step, Controller.setProperty, hupdate]
    have hafter : after'.id = id := (Server.id_of_identity hfits.right).trans hid
    have hget : c'.store.get? id = some after' := by
      have hstored := h.books.get?_edit hfits env.now
      rw [Edit.id, hafter] at hstored
      have hstore : c'.store = _ := congrArg Books.store hbooks
      rw [hstore]
      exact hstored
    have hproperty : after'.properties.get? key = some value := by
      rcases Controller.update_eq_ok hupdate with ⟨s, _, rfl⟩
      exact Properties.get?_insert_self key value s.properties
    rw [hstep]
    constructor
    case placed =>
      have hmem := h.books.placed before hfits.left
      exact List.mem_map.mpr ⟨before.identity, hmem, hid⟩
    case stored =>
      intro s hs
      cases hget.symm.trans hs
      rw [hproperty]
      exact hallowed
    case sent =>
      intro t s hasks _
      exact Or.inr hasks

theorem run_cons (settings : ControlSettings) (moves : List Move) (move : Move) (more : List Move) :
    run settings (moves ++ move :: more) = more.foldl Fleet.step ((run settings moves).step move) :=
  run_append settings moves (move :: more)

/-- A record had been sent before a move, and in the moves after it the answer is taken over. -/
def TakenOver (settings : ControlSettings) (before : List Move) (move : Move) (between : List Move)
    (sent : Server) : Prop :=
  ∃ earlier t env replies later, between = earlier ++ .go t env replies :: later ∧
    (run settings before).Asks t sent ∧
    (run settings (before ++ move :: earlier)).TakesOver (.go t env replies) sent.id

/-- The override of a property of a server was acknowledged, and then nobody overrides the property again
and the answers taken for the server repeat what was sent.  The record has the property as it was
overridden, unless an answer was taken over about a record that had been sent before the override.
Whenever an answer is taken over, the record has the property as it was sent. -/
theorem override_lasts_until_taken_over (settings : ControlSettings) (before between : List Move)
    (env : Env) (id : ServerId) (key value : String) {after : Server}
    (hacknowledged : ((run settings before).controller.setProperty env id key value).2 = .ok after)
    (hkey : ∀ env' value', .setProperty env' id key value' ∉ between)
    (hechoes : ∀ earlier move later, between = earlier ++ move :: later →
      (run settings (before ++ .setProperty env id key value :: earlier)).Echoes move id key) :
    (∀ s, (run settings (before ++ .setProperty env id key value :: between)).controller.store.get? id =
        some s →
      s.properties.get? key = some value ∨
      ∃ sent, sent.id = id ∧ TakenOver settings before (.setProperty env id key value) between sent ∧
        s.properties.get? key = sent.properties.get? key) ∧
    ∀ earlier t env' replies later sent, between = earlier ++ .go t env' replies :: later →
      (run settings (before ++ .setProperty env id key value :: earlier)).Asks t sent → sent.id = id →
      (run settings (before ++ .setProperty env id key value :: earlier)).TakesOver
        (.go t env' replies) id →
      ∃ s, (run settings (before ++ .setProperty env id key value ::
          (earlier ++ [.go t env' replies]))).controller.store.get? id = some s ∧
        s.properties.get? key = sent.properties.get? key := by
  constructor
  -- The property may have the value of the override, or what an early record had whose answer is taken over.
  · have h := sound_run settings before
    have hstart := h.confined_setProperty hacknowledged (fun found =>
      found = some value ∨ ∃ sent, sent.id = id ∧
        TakenOver settings before (.setProperty env id key value) between sent ∧
        found = sent.properties.get? key) (Or.inl rfl)
    rw [run_cons]
    refine (hstart.foldl between (h.step _) hkey ?_ ?_).stored
    · intro earlier move later hbetween
      rw [← run_cons]
      exact hechoes earlier move later hbetween
    · intro earlier t env' replies later sent hbetween htakes hid hearly
      refine Or.inr ⟨sent, hid, ⟨earlier, t, env', replies, later, hbetween, hearly, ?_⟩, rfl⟩
      rw [hid, run_cons]
      exact htakes
  · intro earlier t env' replies later sent hbetween hasks hid htakes
    have h := sound_run settings (before ++ .setProperty env id key value :: earlier)
    rcases h.stored_of_takesOver htakes (hechoes earlier _ later hbetween) hasks hid with
      ⟨s, hs, hkept⟩
    refine ⟨s, ?_, hkept⟩
    rw [← List.cons_append, ← List.append_assoc, run_snoc]
    exact hs

/-!
# An override that is lost

A property is overridden while the launch of its server waits for the host, and the host
answers with the record that it was sent.
-/

def launched? (w : Fleet) (t : Nat) : Option Server :=
  match w.tasks t with
  | some ⟨_, .asking (.start (.launching l))⟩ => some l.provisional
  | _ => none

def started? (w : Fleet) (t : Nat) : Option Server :=
  match w.tasks t with
  | some ⟨_, .ended (.server (.ok s))⟩ => some s
  | _ => none

theorem task_of_launched? (h : w.launched? t = some s) :
    ∃ order l, w.tasks t = some ⟨order, .asking (.start (.launching l))⟩ ∧ l.provisional = s := by
  rw [launched?] at h
  split at h
  next htask =>
    exact ⟨_, _, htask, Option.some.inj h⟩
  next =>
    cases h

theorem task_of_started? (h : w.started? t = some s) :
    ∃ order, w.tasks t = some ⟨order, .ended (.server (.ok s))⟩ := by
  rw [started?] at h
  split at h
  next htask =>
    cases h
    exact ⟨_, htask⟩
  next =>
    cases h

namespace Echo

def sent : Server where
  id := Overlap.server
  group := "lobby"
  serverType := "game"
  number := 1
  hostId := Overlap.host.id
  address := Overlap.host.address
  port := 30000
  memoryMin := 512
  memoryMax := 1024
  maxPlayers := 10
  playerCount := 0
  properties := Properties.empty.insert secretProperty "secret"
  state := .preparing
  createdAt := Overlap.noon
  updatedAt := Overlap.noon

def env : Env :=
  ⟨Overlap.noon, Id.ofNat 8⟩

def before : List Move :=
  Overlap.moves.take 5

def override : Move :=
  .setProperty env Overlap.server "motd" "hello"

def answered : Move :=
  .go 1 env [⟨.ok sent, Overlap.noon⟩]

theorem launching : ∃ order l, (run Overlap.settings before).tasks 1 =
    some ⟨order, .asking (.start (.launching l))⟩ ∧ l.provisional = sent :=
  task_of_launched? (by decide +kernel)

theorem acknowledged :
    ∃ after, ((run Overlap.settings before).controller.setProperty env Overlap.server "motd" "hello").2 =
      .ok after := by
  have hchecked : ((run Overlap.settings before).controller.setProperty env Overlap.server "motd"
      "hello").2.isOk = true := by
    decide +kernel
  cases hafter : ((run Overlap.settings before).controller.setProperty env Overlap.server "motd" "hello").2 with
  | ok after =>
      exact ⟨after, rfl⟩
  | error e =>
      rw [hafter] at hchecked
      cases hchecked

end Echo

open Echo in
/-- The override was acknowledged while the launch was waiting, the host repeats what it was sent, and the
property is lost. -/
theorem override_can_be_lost :
    (∃ order l, (run Overlap.settings before).tasks 1 =
      some ⟨order, .asking (.start (.launching l))⟩ ∧ l.provisional = sent) ∧
    (∃ after, ((run Overlap.settings before).controller.setProperty env Overlap.server "motd" "hello").2 =
      .ok after) ∧
    ∃ order s, (run Overlap.settings (before ++ [override, answered])).tasks 1 =
        some ⟨order, .ended (.server (.ok s))⟩ ∧
      (run Overlap.settings (before ++ [override, answered])).controller.store.get? Overlap.server =
        some s ∧
      s.properties.get? "motd" = none := by
  refine ⟨launching, acknowledged, ?_⟩
  have hstarted : (run Overlap.settings (before ++ [override, answered])).started? 1 = some sent := by
    decide +kernel
  rcases task_of_started? hstarted with ⟨order, htask⟩
  exact ⟨order, sent, htask, by decide +kernel, by decide +kernel⟩

open Echo in
theorem override_lasts_until_taken_over_echo :
    (∃ after, ((run Overlap.settings before).controller.setProperty env Overlap.server "motd" "hello").2 =
      .ok after) ∧
    (∀ env' value', .setProperty env' Overlap.server "motd" value' ∉ [answered]) ∧
    (∀ earlier move later, [answered] = earlier ++ move :: later →
      (run Overlap.settings (before ++ override :: earlier)).Echoes move Overlap.server "motd") ∧
    ∃ s, TakenOver Overlap.settings before override [answered] s ∧ s.id = Overlap.server := by
  rcases acknowledged with ⟨after, hafter⟩
  have hkey : ∀ env' value', .setProperty env' Overlap.server "motd" value' ∉ [answered] := by
    intro env' value' hmem
    cases List.mem_singleton.mp hmem
  have hechoes : ∀ earlier move later, [answered] = earlier ++ move :: later →
      (run Overlap.settings (before ++ override :: earlier)).Echoes move Overlap.server "motd" := by
    intro earlier move later hbetween
    rcases List.cons_eq_append_iff.mp hbetween with ⟨rfl, hmove⟩ | ⟨rest, _, hrest⟩
    · cases hmove
      intro t env' replies order job s reply theirs hgo htask hpair _ hanswer _
      cases hgo
      rcases launching with ⟨order', l, hlaunching, hsent⟩
      have hsame : (run Overlap.settings (before ++ [override])).tasks 1 =
          (run Overlap.settings before).tasks 1 := by
        rw [run_snoc]
        rfl
      rw [hsame, hlaunching] at htask
      cases htask
      cases List.mem_singleton.mp hpair
      cases hanswer
      rw [hsent]
    · simp at hrest
  have hlasts := override_lasts_until_taken_over Overlap.settings before [answered] env Overlap.server
    "motd" "hello" hafter hkey hechoes
  refine ⟨⟨after, hafter⟩, hkey, hechoes, ?_⟩
  rcases hlasts.left sent (by decide +kernel) with hkept | ⟨s, hid, htaken, _⟩
  · exact absurd hkept (by decide +kernel)
  · exact ⟨s, htaken, hid⟩

end Fleet
end ServerFleet
