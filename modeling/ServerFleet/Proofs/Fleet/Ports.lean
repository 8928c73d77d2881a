import ServerFleet.Proofs.Fleet.Caps
import ServerFleet.Proofs.Fleet.Overrides

/-!
# Ports

The port of a server is counted up from the first port of its group by its number.  As
long as the definition of the group stays and hosts repeat the ports that they were
sent, every record has the port of its number.  Numbers are different, so ports are
different too, until they come to the last port there is: from there on all servers of
the group share it.
-/

namespace ServerFleet

namespace Group

def portWord (g : Group) (number : UInt32) : UInt32 :=
  UInt32.ofNat g.startPort.toNat + number - 1

variable {g : Group} {number other : UInt32}

theorem toNat_portOf (g : Group) (number : UInt32) :
    (g.portOf number).toNat = min 65535 (g.portWord number).toNat := by
  have hsmall : min 65535 (g.portWord number).toNat < UInt16.size :=
    Nat.lt_of_le_of_lt (Nat.min_le_left _ _) (by decide)
  exact UInt16.toNat_ofNat_of_lt hsmall

theorem portWord_inj : g.portWord number = g.portWord other ↔ number = other := by
  rw [portWord, portWord, UInt32.sub_left_inj, UInt32.add_right_inj]

theorem toNat_portWord (hpositive : 0 < g.startPort.toNat + number.toNat)
    (hword : g.startPort.toNat + number.toNat ≤ UInt32.size) :
    (g.portWord number).toNat = g.startPort.toNat + number.toNat - 1 := by
  have hstart : g.startPort.toNat < UInt16.size := g.startPort.toNat_lt_size
  rw [portWord, UInt32.toNat_sub, UInt32.toNat_add]
  simp only [UInt32.toNat_ofNat', UInt32.reduceToNat, UInt32.size, UInt16.size] at *
  omega

/-- Two numbers have the same port only if both are at the end of the ports. -/
theorem portOf_eq_iff (hne : number ≠ other) : g.portOf number = g.portOf other ↔
    65535 ≤ (g.portWord number).toNat ∧ 65535 ≤ (g.portWord other).toNat := by
  have hwords : (g.portWord number).toNat ≠ (g.portWord other).toNat := by
    rw [Ne, UInt32.toNat_inj, portWord_inj]
    exact hne
  rw [← UInt16.toNat_inj, toNat_portOf, toNat_portOf]
  omega

end Group

def GroupRow.Agrees (row : GroupRow) (g : Group) : Prop :=
  ∀ found, Json.decodeText Group.decode row.body = .ok found → found.name = g.name → found = g

theorem Database.exists_row_of_findGroup {db : Database} {name : String} {g : Group}
    (h : db.findGroup name = .ok (some g)) :
    ∃ row ∈ db.groups, Json.decodeText Group.decode row.body = .ok g := by
  rw [findGroup] at h
  split at h
  next =>
    cases h
  next =>
    split at h
    next =>
      cases h
    next row hrow =>
      split at h
      next =>
        cases h
      next hdecoded =>
        cases h
        exact ⟨row, List.mem_of_find?_eq_some hrow, hdecoded⟩

/-- If a record is of a group, it has the port that its number has there. -/
def Server.PortedIn (s : Server) (g : Group) : Prop :=
  s.group = g.name → s.port = g.portOf s.number

theorem Server.PortedIn.of_identity {s r : Server} {g : Group} (h : s.PortedIn g)
    (hidentity : r.identity = s.identity) (hport : s.group = g.name → r.port = s.port) :
    r.PortedIn g := by
  intro hgroup
  have hsame : s.group = g.name := (congrArg Identity.group hidentity).symm.trans hgroup
  have hnumber : r.number = s.number := congrArg Identity.number hidentity
  rw [hport hsame, hnumber]
  exact h hsame

theorem Server.port_of_bind {ours merged : Server} {answer : Answer} {now : Time.Instant}
    (h : (answer.bind fun theirs => ours.merge theirs now) = .ok merged) :
    ∃ theirs, answer = .ok theirs ∧ merged.port = theirs.port := by
  cases answer with
  | error e =>
      cases h
  | ok theirs =>
      rw [Except.bind, merge] at h
      split at h
      next =>
        cases h
      next =>
        cases h
        exact ⟨theirs, rfl, rfl⟩

def Reply.echoesPort (r : Reply) (s : Server) : Bool :=
  match r.answer with
  | .ok theirs => theirs.port == s.port
  | .error _ => true

namespace Fleet

def Move.Agrees (g : Group) : Move → Prop
  | .weather groups _ _ => ∀ row ∈ groups, row.Agrees g
  | _ => True

/-- Whether the answers that a move takes for servers of a group repeat the ports that were sent. -/
def echoesPorts (w : Fleet) (g : Group) : Move → Bool
  | .go t _ replies =>
      match w.tasks t with
      | some ⟨_, .asking job⟩ =>
          (job.sent.zip replies).all fun p => p.1.group != g.name || p.2.echoesPort p.1
      | _ => true
  | _ => true

structure Ported (w : Fleet) (g : Group) : Prop where
  agrees : ∀ row ∈ w.controller.store.database.groups, row.Agrees g
  stored : ∀ s ∈ w.controller.store.index, s.PortedIn g
  sent : ∀ t s, w.Asks t s → s.PortedIn g

variable {w w' : Fleet} {move : Move} {now : Time.Instant} {es : List Edit} {g : Group} {t : Nat}
  {s : Server}

theorem port_of_echoesPorts {env : Env} {replies : List Reply} {order : Order} {job : Job}
    {reply : Reply} {theirs : Server} (hechoes : w.echoesPorts g (.go t env replies) = true)
    (htask : w.tasks t = some ⟨order, .asking job⟩) (hpair : (s, reply) ∈ job.sent.zip replies)
    (hgroup : s.group = g.name) (hanswer : reply.answer = .ok theirs) : theirs.port = s.port := by
  simp only [echoesPorts, htask, List.all_eq_true] at hechoes
  have hpaired := hechoes (s, reply) hpair
  simpa [hgroup, Reply.echoesPort, hanswer] using hpaired

/-!
# One move
-/

theorem Goes.agrees (hgoes : w.Goes move now es w') (hmove : move.Agrees g)
    (hw : ∀ row ∈ w.controller.store.database.groups, row.Agrees g) :
    ∀ row ∈ w'.controller.store.database.groups, row.Agrees g := by
  have hedits {b : Books} (hedited : w.books.Edited now es b) :
      ∀ row ∈ b.store.database.groups, row.Agrees g := by
    rcases hedited.database_eq with ⟨servers, hdatabase⟩
    rw [hdatabase]
    exact hw
  cases hgoes with
  | still hcontroller _ _ =>
      rw [hcontroller]
      exact hw
  | weather =>
      exact hmove
  | restart =>
      exact hw
  | begin _ _ _ _ hedited | resume _ _ _ _ hedited | override _ _ hedited =>
      exact hedits hedited

theorem stored_of_begins {c : Controller} {env : Env} {order : Order} {p : Progress Job Outcome}
    {placed : List Identity} {b : Books} {job : Job} (h : c.Begins env order es p)
    (hes : (c.books placed).Edited env.now es b) (hstage : p.stage = .asking job)
    (hs : s ∈ job.sent) : s ∈ b.store.index := by
  cases h with
  | placed _ _ _ =>
      cases hstage
      cases List.mem_singleton.mp hs
      rw [(Books.edited_single_iff.mp hes).right]
      exact Store.mem_stored.mpr (Or.inl rfl)
  | sweeping =>
      cases hstage
      rw [Books.edited_nil_iff.mp hes]
      exact (Store.mem_byHost.mp (List.mem_filter.mp hs).left).left
  | stopping _ _ _ =>
      cases hstage
      cases hs
  | startRefused _ | stopRefused _ | attached =>
      cases hstage

theorem Goes.stored_of_asks (hgoes : w.Goes move now es w') (hasks : w'.Asks t s) :
    w.Asks t s ∨ s ∈ w'.controller.store.index := by
  rcases hasks with ⟨order, job, htask, hs⟩
  cases hgoes with
  | still _ _ htasks =>
      rcases htasks t with hsame | ⟨_, _, hordered⟩
      · exact Or.inl ⟨order, job, hsame ▸ htask, hs⟩
      · rw [hordered] at htask
        cases htask
  | weather | override _ _ _ =>
      exact Or.inl ⟨order, job, htask, hs⟩
  | restart =>
      cases htask
  | begin _ _ _ hbegins hedited =>
      rcases of_tasks_advance htask with hold | ⟨_, hstage⟩
      · exact Or.inl ⟨order, job, hold, hs⟩
      · exact Or.inr (stored_of_begins hbegins hedited (congrArg Task.stage hstage).symm hs)
  | resume _ _ _ hresumes _ =>
      rcases of_tasks_advance htask with hold | ⟨_, hstage⟩
      · exact Or.inl ⟨order, job, hold, hs⟩
      · rw [resumes_sent hresumes hstage.symm] at hs
        cases hs

theorem Goes.port_of_place (hgoes : w.Goes move now es w') (h : w.Sound) (he : .place s ∈ es) :
    ∃ name found, w.controller.store.database.findGroup name = .ok (some found) ∧
      s.group = found.name ∧ s.port = found.portOf s.number := by
  cases hgoes with
  | still _ _ _ | weather | restart =>
      cases he
  | begin _ _ _ hbegins _ =>
      cases hbegins with
      | placed hgroup _ _ =>
          cases List.mem_singleton.mp he
          exact ⟨_, _, hgroup, rfl, rfl⟩
      | startRefused _ | stopRefused _ | stopping _ _ _ | attached | sweeping =>
          cases he
  | override _ _ _ =>
      cases List.mem_singleton.mp he
  | resume hold _ _ hresumes _ =>
      have hquiet := (hresumes.asked (h.fits _ _ hold) _ he).left
      cases hquiet

theorem identity_port_of_change? {env : Env} {id : ServerId} {change : Server → Server}
    (hmove : move.change? = some (env, id, change)) (s : Server) :
    (change s).identity = s.identity ∧ (change s).port = s.port := by
  cases move with
  | setState _ _ _ | setProperty _ _ _ _ =>
      cases hmove
      exact ⟨rfl, rfl⟩
  | order _ | stopNumber _ _ _ | orderPass | go _ _ _ | goPass _ | weather _ _ _ | restart _ =>
      cases hmove

theorem Ported.left (hw : w.Ported g) (h : w.Sound) (hgoes : w.Goes move now es (w.step move))
    (hechoes : w.echoesPorts g move = true) {e : Edit} (he : e ∈ es) {r : Server}
    (hleft : e.left? (w.controller.store.get? e.id) = some r) : r.PortedIn g := by
  have hmakes := hgoes.makes h he
  cases e with
  | place s =>
      cases hleft
      intro hname
      rcases hgoes.port_of_place h he with ⟨name, found, hfound, hgroup, hport⟩
      rcases Database.exists_row_of_findGroup hfound with ⟨row, hrow, hdecoded⟩
      rw [← hw.agrees row hrow found hdecoded (hgroup.symm.trans hname)]
      exact hport
  | commit m cause =>
      cases hleft
      cases hmakes with
      | @committed t order env replies l _ hold hmerged _ =>
          have hplaced := hw.sent t l.provisional ⟨_, _, hold, List.mem_singleton.mpr rfl⟩
          refine hplaced.of_identity (Server.identity_of_bind hmerged) ?_
          intro hgroup
          rcases Server.port_of_bind hmerged with ⟨theirs, hanswer, hport⟩
          cases replies with
          | nil =>
              cases hanswer
          | cons reply rest =>
              rw [hport]
              exact port_of_echoesPorts hechoes hold List.mem_cons_self hgroup hanswer
  | refresh m =>
      cases hleft
      cases hmakes with
      | @refreshed t env replies sweep report s _ reply hold hpair hmerged _ _ =>
          have hplaced := hw.sent t s ⟨_, _, hold, (List.of_mem_zip hpair).left⟩
          refine hplaced.of_identity (Server.identity_of_merged hmerged) ?_
          intro hgroup
          rcases Server.port_of_bind hmerged with ⟨theirs, hanswer, hport⟩
          rw [hport]
          exact port_of_echoesPorts hechoes hold hpair hgroup hanswer
  | override before after =>
      cases hleft
      cases hmakes with
      | overridden hmove hupdate =>
          rcases Controller.update_eq_ok hupdate with ⟨s, hs, rfl⟩
          rcases identity_port_of_change? hmove s with ⟨hidentity, hport⟩
          exact (hw.stored s (Store.mem_of_get? hs).left).of_identity hidentity fun _ => hport
  | land id =>
      exact hw.stored r (Store.mem_of_get? hleft).left
  | withdraw _ | remove _ _ =>
      cases hleft

theorem Ported.step (hw : w.Ported g) (h : w.Sound) (hmove : move.Agrees g)
    (hechoes : w.echoesPorts g move = true) : (w.step move).Ported g := by
  rcases h.goes move with ⟨now, es, hgoes⟩
  have hstored : ∀ s ∈ (w.step move).controller.store.index, s.PortedIn g := by
    intro r hr
    have hget := (h.step move).books.store.get?_eq_some_iff.mpr ⟨hr, rfl⟩
    by_cases hedited : ∃ e ∈ es, e.id = r.id
    · rcases hedited with ⟨e, he, hid⟩
      refine hw.left h hgoes hechoes he ?_
      rw [← hgoes.get?_of_mem h he, hid]
      exact hget
    · have hothers : ∀ e ∈ es, e.id ≠ r.id := fun e he hid => hedited ⟨e, he, hid⟩
      have hbefore := (hgoes.get?_eq h hothers).symm.trans hget
      exact hw.stored r (Store.mem_of_get? hbefore).left
  constructor
  case agrees =>
    exact hgoes.agrees hmove hw.agrees
  case stored =>
    exact hstored
  case sent =>
    intro t s hasks
    rcases hgoes.stored_of_asks hasks with hold | hnew
    · exact hw.sent t s hold
    · exact hstored s hnew

theorem ported_run (settings : ControlSettings) {moves : List Move}
    (hdefined : ∀ move ∈ moves, move.Agrees g)
    (hechoes : ∀ earlier move later, moves = earlier ++ move :: later →
      (run settings earlier).echoesPorts g move = true) : (run settings moves).Ported g := by
  induction moves using List.reverseRecOn with
  | nil =>
      constructor
      case agrees =>
        intro row hrow
        cases hrow
      case stored =>
        intro s hs
        cases hs
      case sent =>
        intro t s hasks
        rcases hasks with ⟨order, job, htask, _⟩
        cases htask
  | append_singleton moves move ih =>
      rw [run_snoc]
      have hw := ih (fun earlier hmem => hdefined earlier (List.mem_append_left _ hmem))
        fun earlier between later hmoves =>
          hechoes earlier between (later ++ [move]) (by rw [hmoves, List.append_assoc]; rfl)
      exact hw.step (sound_run settings moves)
        (hdefined move (List.mem_append_right _ List.mem_cons_self)) (hechoes moves move [] rfl)

/-- While the definition of a group stays and hosts repeat the ports that they were sent, every record of
the group has the port to which its number counts, as far as there are ports.  Two records have the
same port only if both are beyond the other ports: then they share the last one. -/
theorem ports_count_up (settings : ControlSettings) (moves : List Move)
    (hdefined : ∀ move ∈ moves, move.Agrees g)
    (hechoes : ∀ earlier move later, moves = earlier ++ move :: later →
      (run settings earlier).echoesPorts g move = true) :
    let index := (run settings moves).controller.store.index
    (∀ s ∈ index, s.group = g.name →
      s.port.toNat = min 65535 (g.portWord s.number).toNat ∧
        (0 < g.startPort.toNat + s.number.toNat →
          g.startPort.toNat + s.number.toNat ≤ UInt32.size →
          s.port.toNat = min 65535 (g.startPort.toNat + s.number.toNat - 1))) ∧
    ∀ a ∈ index, ∀ b ∈ index, a.group = g.name → b.group = g.name → a ≠ b →
      (a.port = b.port ↔
        65535 ≤ (g.portWord a.number).toNat ∧ 65535 ≤ (g.portWord b.number).toNat) := by
  have hported := ported_run settings hdefined hechoes
  have hstore : (run settings moves).controller.store.Consistent := (sound_run settings moves).books.store
  intro index
  constructor
  · intro s hs hgroup
    have hport : s.port.toNat = min 65535 (g.portWord s.number).toNat := by
      rw [hported.stored s hs hgroup, Group.toNat_portOf]
    refine ⟨hport, ?_⟩
    intro hpositive hword
    rw [hport, Group.toNat_portWord hpositive hword]
  · intro a ha b hb hagroup hbgroup hne
    have hnumbers : a.number ≠ b.number := by
      intro hsame
      apply hne
      apply hstore.eq_of_place ha hb
      rw [Server.place, Server.place, hagroup, hbgroup, hsame]
    rw [hported.stored a ha hagroup, hported.stored b hb hbgroup, Group.portOf_eq_iff hnumbers]

def checks (check : Fleet → Move → Bool) : Fleet → List Move → Bool
  | _, [] => true
  | w, move :: rest => check w move && checks check (w.step move) rest

theorem of_checks {check : Fleet → Move → Bool} {moves : List Move}
    (h : checks check w moves = true) {earlier later : List Move}
    (hmoves : moves = earlier ++ move :: later) : check (earlier.foldl Fleet.step w) move = true := by
  induction earlier generalizing w moves with
  | nil =>
      rw [hmoves, List.nil_append, checks, Bool.and_eq_true] at h
      exact h.left
  | cons first rest ih =>
      rw [hmoves, List.cons_append, checks, Bool.and_eq_true] at h
      exact ih h.right rfl

namespace LastPort

open Overlap

def lobby : Group :=
  { Lobby.lobby with startPort := 65535 }

def first : Server :=
  { answer with port := 65535 }

def second : Server :=
  { first with
    id := Id.ofNat 8
    number := 2 }

def twoStarts : List Move := [
  .weather [.ofGroup lobby] true fun _ => none,
  .order (.attach host),
  .go 0 ⟨noon, server⟩ [],
  .order (.start "lobby" .api),
  .go 1 ⟨noon, server⟩ [],
  .go 1 ⟨noon, second.id⟩ [⟨.ok first, noon⟩],
  .order (.start "lobby" .api),
  .go 2 ⟨noon, second.id⟩ [],
  .go 2 ⟨noon, first.id⟩ [⟨.ok second, noon⟩]]

theorem agrees_twoStarts : ∀ move ∈ twoStarts, move.Agrees lobby := by
  have hrow : (GroupRow.ofGroup lobby).Agrees lobby := by
    intro found hdecoded _
    rw [GroupRow.ofGroup, Group.decodeText_toJson] at hdecoded
    exact (Except.ok.inj hdecoded).symm
  simp [twoStarts, Move.Agrees, hrow]

theorem echoes_twoStarts {earlier later : List Move} {move : Move}
    (hmoves : twoStarts = earlier ++ move :: later) :
    (run settings earlier).echoesPorts lobby move = true := by
  have hchecks : checks (fun w move => w.echoesPorts lobby move) (fresh settings) twoStarts = true := by
    decide +kernel
  exact of_checks hchecks hmoves

theorem stored_twoStarts :
    (run settings twoStarts).controller.store.index = [first, second] ∧ first ≠ second ∧
      first.group = lobby.name ∧ second.group = lobby.name := by
  decide +kernel

end LastPort

open LastPort Overlap in
/-- Two servers of a valid group that never changed have the same port, and one of them not that of its
number, though the host repeated what it was sent. -/
theorem ports_can_coincide :
    lobby.validate = .ok () ∧ (∀ move ∈ twoStarts, move.Agrees lobby) ∧
      (∀ earlier move later, twoStarts = earlier ++ move :: later →
        (run settings earlier).echoesPorts lobby move = true) ∧
      ∃ a ∈ (run settings twoStarts).controller.store.index,
        ∃ b ∈ (run settings twoStarts).controller.store.index,
          a ≠ b ∧ a.group = lobby.name ∧ b.group = lobby.name ∧ a.port = b.port ∧
            b.port.toNat ≠ lobby.startPort.toNat + b.number.toNat - 1 := by
  rcases stored_twoStarts with ⟨hindex, hne, hfirst, hsecond⟩
  refine ⟨by decide +kernel, agrees_twoStarts, fun _ _ _ => echoes_twoStarts, ?_⟩
  rw [hindex]
  exact ⟨first, List.mem_cons_self, second, List.mem_cons_of_mem _ List.mem_cons_self, hne, hfirst, hsecond,
    rfl, by decide⟩

open LastPort Overlap in
theorem ports_count_up_last_port :
    first.port.toNat = min 65535 (lobby.startPort.toNat + first.number.toNat - 1) ∧
      (first.port = second.port ↔
        65535 ≤ (lobby.portWord first.number).toNat ∧ 65535 ≤ (lobby.portWord second.number).toNat) := by
  rcases stored_twoStarts with ⟨hindex, hne, hgroup, hgroup'⟩
  have hcounts := ports_count_up settings twoStarts agrees_twoStarts fun _ _ _ => echoes_twoStarts
  rw [hindex] at hcounts
  have hfirst : first ∈ [first, second] := List.mem_cons_self
  have hsecond : second ∈ [first, second] := List.mem_cons_of_mem _ List.mem_cons_self
  exact ⟨(hcounts.left first hfirst hgroup).right (by decide) (by decide),
    hcounts.right first hfirst second hsecond hgroup hgroup' hne⟩

end Fleet
end ServerFleet
