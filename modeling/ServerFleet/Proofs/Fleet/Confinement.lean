import ServerFleet.Proofs.Fleet.Moves

/-!
# What answers may touch

A host that answers for a server has a say in the record of this server, but for its
identity, and in nothing else.  The answers of a sweep are handled one after the other.
What becomes of a record depends on the answer about its own server only, so it is the
same whatever is said of the others.
-/

namespace ServerFleet

def Reply.leaves (reply : Reply) (refusal : Statement → Option String) (s : Server)
    (found : Option Server) : Option Server :=
  match reply.merged s with
  | .ok m => if refusal (.saveServer s.id.text) = none then found.map fun _ => m else found
  | .error _ => if refusal (.deleteServer s.id.text) = none then none else found

namespace Controller

/-- One controller comes out of another by changes of one server alone, which do not place it. -/
structure TouchesOnly (c c' : Controller) (id : ServerId) : Prop where
  record : ∀ other, other ≠ id → c'.store.get? other = c.store.get? other
  unplaced : c.store.get? id = none → c'.store.get? id = none
  untaken : ∀ group number, c'.numbers.isHeld group number = true →
    c.numbers.isHeld group number = true
  /-- A number that is given back is that of the server, whose record is gone. -/
  freed : ∀ group number, c.numbers.isHeld group number = true →
    c'.numbers.isHeld group number = false →
    ∃ s, c.store.get? id = some s ∧ c'.store.get? id = none ∧ s.group = group ∧
      s.number.toNat = number

/-- A job with its replies comes to the reply to a call, and goes from one controller to another by
handling it. -/
inductive Handles (c : Controller) (env : Env) :
    Job → List Reply → AgentCall → Controller → Controller → Prop where
  | start {work : StartWork} {replies : List Reply} :
      Handles c env (.start work) replies work.call c (c.resume env (.start work) replies).1
  | stop {k : Stopping} {replies : List Reply} :
      Handles c env (.stop k) replies k.call c (c.resume env (.stop k) replies).1
  | attach {sweep : Sweep} {replies : List Reply} {before after : List (Server × Reply)} {s : Server}
      {reply : Reply} (hreplies : sweep.owned.zip replies = before ++ (s, reply) :: after) :
      Handles c env (.attach sweep) replies (.reattach sweep.host s)
        (c.settleAll env .empty before).1 (c.settleAll env .empty (before ++ [(s, reply)])).1

structure AlikeApartFrom (c c' : Controller) (s : Server) : Prop where
  record : ∀ id, id ≠ s.id → c'.store.get? id = c.store.get? id
  held : ∀ group number, (group, number) ≠ s.slot →
    c'.numbers.isHeld group number = c.numbers.isHeld group number

variable {c c' : Controller} {env : Env} {placed : List Identity} {s : Server} {id : ServerId}

/-!
# Edits of one server
-/

theorem touchesOnly_of_edited {now : Time.Instant} {es : List Edit} (h : (c.books placed).Sound)
    (hes : (c.books placed).Edited now es (c'.books placed))
    (hedits : ∀ e ∈ es, e.begun? = none ∧ e.id = id) : c.TouchesOnly c' id := by
  have hquiet : ∀ e ∈ es, e.begun? = none := fun e he => (hedits e he).left
  have hsound := hes.sound h
  have hstill {other : ServerId} (hmem : other ∈ Store.ids c'.store.index) :
      other ∈ Store.ids c.store.index :=
    ((hes.mem_ids h hquiet).mp hmem).left
  have hslot {a b : Server} (ha : a ∈ c.store.index) (hb : b ∈ c'.store.index) (hid : a.id = b.id) :
      a.slot = b.slot :=
    Server.slot_of_identity (hes.identity_eq h ha hb hid)
  constructor
  case record =>
    intro other hother
    apply hes.get?_eq h
    intro e he hsame
    exact hother (hsame.symm.trans (hedits e he).right)
  case unplaced =>
    intro hnone
    rw [Store.get?_eq_none_iff] at hnone ⊢
    exact fun hmem => hnone (hstill hmem)
  case untaken =>
    intro group number hheld
    rw [Numbers.isHeld_iff] at hheld ⊢
    rcases (hsound.taken _).mp hheld with ⟨r, hr, hplace⟩
    rcases List.mem_map.mp (hstill (Store.mem_ids hr)) with ⟨own, hown, hid⟩
    exact (h.taken _).mpr ⟨own, hown, (hslot hown hr hid).trans hplace⟩
  case freed =>
    intro group number hheld hfree
    rw [Numbers.isHeld_iff] at hheld
    rw [← Bool.not_eq_true, Numbers.isHeld_iff] at hfree
    rcases (h.taken _).mp hheld with ⟨s, hs, hplace⟩
    have hgone : s.id ∉ Store.ids c'.store.index := by
      intro hmem
      rcases List.mem_map.mp hmem with ⟨r, hr, hid⟩
      exact hfree ((hsound.taken _).mpr ⟨r, hr, (hslot hs hr hid.symm).symm.trans hplace⟩)
    have hid : s.id = id := by
      by_contra hne
      refine hgone ((hes.mem_ids h hquiet).mpr ⟨Store.mem_ids hs, ?_⟩)
      intro e he hsame
      exact hne ((Edit.id_of_gone? hsame).symm.trans (hedits e he).right)
    subst hid
    refine ⟨s, h.store.get?_eq_some_iff.mpr ⟨hs, rfl⟩, Store.get?_eq_none_iff.mpr hgone, ?_⟩
    exact ⟨congrArg Prod.fst hplace, congrArg Prod.snd hplace⟩

theorem alikeApartFrom_of_records (h : (c.books placed).Sound) (h' : (c'.books placed).Sound)
    (hplaced : s.identity ∈ placed)
    (hrecords : ∀ id, id ≠ s.id → c'.store.get? id = c.store.get? id) : c.AlikeApartFrom c' s := by
  have hheld {c c' : Controller} (h : (c.books placed).Sound) (h' : (c'.books placed).Sound)
      (hrecords : ∀ id, id ≠ s.id → c'.store.get? id = c.store.get? id) {p : String × Nat}
      (hp : p ≠ s.slot) (hmem : p ∈ c.numbers) : p ∈ c'.numbers := by
    rcases (h.taken p).mp hmem with ⟨r, hr, rfl⟩
    have hne : r.id ≠ s.id := by
      intro hid
      exact hp (Server.slot_of_identity (h.identity_eq (h.placed r hr) hplaced hid))
    have hget : c'.store.get? r.id = some r :=
      (hrecords r.id hne).trans (h.store.get?_eq_some_iff.mpr ⟨hr, rfl⟩)
    exact (h'.taken _).mpr ⟨r, (Store.mem_of_get? hget).left, rfl⟩
  refine ⟨hrecords, ?_⟩
  intro group number hne
  rw [Bool.eq_iff_iff, Numbers.isHeld_iff, Numbers.isHeld_iff]
  constructor
  · exact hheld h' h (fun id hid => (hrecords id hid).symm) hne
  · exact hheld h h' hrecords hne

/-!
# One reply
-/

theorem settle_edited (env : Env) (h : (c.books placed).Sound) (hplaced : s.identity ∈ placed)
    (hlanded : s.id ∉ c.store.launching) (report : Report) (reply : Reply) :
    ∃ es, (c.books placed).Edited env.now es ((c.settle env report s reply).1.books placed) ∧
      ∀ e ∈ es, e.begun? = none ∧ e.id = s.id := by
  rcases settle_cases env h hplaced hlanded report reply with
    ⟨m, c', hmerged, hsettle, hfits, hbooks⟩ | ⟨_, r, c', _, hid, hsettle, hfits, hbooks⟩ |
    hsettle | ⟨reason, hsettle⟩
  · refine ⟨[.refresh m], ?_, ?_⟩
    · rw [hsettle, hbooks]
      exact .single hfits
    · intro e he
      rw [List.mem_singleton.mp he]
      exact ⟨rfl, Server.id_of_identity (Server.identity_of_merged hmerged)⟩
  · refine ⟨[.remove r .hostLost], ?_, ?_⟩
    · rw [hsettle, hbooks]
      exact .single hfits
    · intro e he
      rw [List.mem_singleton.mp he]
      exact ⟨rfl, hid⟩
  · refine ⟨[], ?_, fun e he => (List.not_mem_nil he).elim⟩
    rw [hsettle]
    exact .nil _
  · refine ⟨[], ?_, fun e he => (List.not_mem_nil he).elim⟩
    rw [hsettle]
    exact .nil _

theorem settle_touchesOnly (env : Env) (h : (c.books placed).Sound) (hplaced : s.identity ∈ placed)
    (hlanded : s.id ∉ c.store.launching) (report : Report) (reply : Reply) :
    c.TouchesOnly (c.settle env report s reply).1 s.id := by
  rcases settle_edited env h hplaced hlanded report reply with ⟨es, hedited, hedits⟩
  exact touchesOnly_of_edited h hedited hedits

theorem get?_settle (env : Env) (h : (c.books placed).Sound) (hplaced : s.identity ∈ placed)
    (report : Report) (reply : Reply) :
    (c.settle env report s reply).1.store.get? s.id =
      reply.leaves c.store.database.refusal s (c.store.get? s.id) := by
  classical
  have hstore : c.store.Consistent := h.store
  rw [settle, Reply.leaves]
  cases hmerged : reply.merged s with
  | error e =>
      simp only [purge, hstore.remove_eq]
      cases hget : c.store.get? s.id with
      | none =>
          simp [hget]
      | some r =>
          cases hrefusal : c.store.database.refusal (.deleteServer s.id.text) with
          | some reason =>
              simp [hget]
          | none =>
              simpa [releaseNumber, publish] using hstore.get?_without s.id s.id
  | ok m =>
      have hidentity := Server.identity_of_merged hmerged
      have hid : m.id = s.id := Server.id_of_identity hidentity
      by_cases hmem : m.id ∈ Store.ids c.store.index
      · have hplace : ¬ c.store.Occupied m :=
          h.not_occupied_of_placed (hidentity ▸ hplaced) hmem
        rcases Store.exists_get?_iff.mpr hmem with ⟨r, hr⟩
        rw [hid] at hr
        simp only [Store.replace_eq, if_pos hmem, hstore.save_eq, if_neg hplace]
        rw [hid]
        cases hrefusal : c.store.database.refusal (.saveServer s.id.text) with
        | some reason =>
            simp [Except.map]
        | none =>
            simp [Except.map, hr, hstore.get?_stored hplace, hid]
      · have hnone : c.store.get? s.id = none := by
          rw [Store.get?_eq_none_iff, ← hid]
          exact hmem
        simp [Store.replace_eq, hmem, hnone]

/-!
# All replies of a sweep
-/

theorem settleAll_append (c : Controller) (env : Env) (report : Report)
    (pairs more : List (Server × Reply)) :
    c.settleAll env report (pairs ++ more) =
      (c.settleAll env report pairs).1.settleAll env (c.settleAll env report pairs).2 more := by
  induction pairs generalizing c report with
  | nil =>
      rfl
  | cons p rest ih =>
      exact ih _ _

theorem settleAll_keeps (env : Env) (h : (c.books placed).Sound) (pairs : List (Server × Reply))
    (hfits : ∀ p ∈ pairs, p.1.identity ∈ placed ∧ p.1.id ∉ c.store.launching) (report : Report) :
    ((c.settleAll env report pairs).1.books placed).Sound ∧
      (∀ id, id ∈ (c.settleAll env report pairs).1.store.launching ↔ id ∈ c.store.launching) ∧
      ∀ id, (∀ p ∈ pairs, p.1.id ≠ id) →
        (c.settleAll env report pairs).1.store.get? id = c.store.get? id := by
  rcases settleAll_sweeps env h pairs hfits report with ⟨es, hsweeps, hedited⟩
  refine ⟨hedited.sound h, fun id => hedited.mem_launching hsweeps.quiet id, ?_⟩
  intro id hothers
  apply hedited.get?_eq h
  intro e he hsame
  rcases hsweeps.about e he with ⟨p, hp, hid⟩
  exact hothers p hp (hid.trans hsame)

theorem get?_settleAll (env : Env) (h : (c.books placed).Sound) (pairs : List (Server × Reply))
    (hfits : ∀ p ∈ pairs, p.1.identity ∈ placed ∧ p.1.id ∉ c.store.launching)
    (hnodup : (pairs.map fun p => p.1.id).Nodup) (report : Report) {reply : Reply}
    (hpair : (s, reply) ∈ pairs) :
    (c.settleAll env report pairs).1.store.get? s.id =
      reply.leaves c.store.database.refusal s (c.store.get? s.id) := by
  induction pairs generalizing c report with
  | nil =>
      cases hpair
  | cons p rest ih =>
      cases p with
      | mk first answered =>
          have hfirst := hfits (first, answered) List.mem_cons_self
          rw [List.map_cons, List.nodup_cons] at hnodup
          rcases settle_frame env h hfirst.left hfirst.right report answered with
            ⟨hsound, hlaunching, hrefusal, _⟩
          have hrest : ∀ p ∈ rest, p.1.identity ∈ placed ∧
              p.1.id ∉ (c.settle env report first answered).1.store.launching := by
            intro p hp
            rw [hlaunching]
            exact hfits p (List.mem_cons_of_mem _ hp)
          rw [settleAll]
          rcases List.mem_cons.mp hpair with hhead | hlater
          · cases hhead
            have hothers : ∀ p ∈ rest, p.1.id ≠ s.id := by
              intro p hp hid
              exact hnodup.left (List.mem_map.mpr ⟨p, hp, hid⟩)
            rw [(settleAll_keeps env hsound rest hrest _).right.right s.id hothers,
              get?_settle env h hfirst.left]
          · have hne : s.id ≠ first.id := by
              intro hid
              exact hnodup.left (List.mem_map.mpr ⟨_, hlater, hid⟩)
            have htouches := settle_touchesOnly env h hfirst.left hfirst.right report answered
            rw [ih hsound hrest hnodup.right _ hlater, hrefusal, htouches.record s.id hne]

/-!
# All jobs
-/

theorem Resumes.asked {job : Job} {replies : List Reply} {es : List Edit} {p : Progress Job Outcome}
    (h : c.Resumes env job replies es p) (hjob : job.Fits (c.books placed)) :
    ∀ e ∈ es, e.begun? = none ∧ ∃ call ∈ job.calls, e.id = call.server.id := by
  have hundone {u : Undo} {e : Edit} (hjob : (Job.start (.undoing u)).Fits (c.books placed))
      (hid : e.id = u.provisional.id) :
      ∃ call ∈ (Job.start (.undoing u)).calls, e.id = call.server.id := by
    have hconfirmed := Server.id_of_identity (hjob.right.right u rfl).left
    exact ⟨_, List.mem_singleton.mpr rfl, hid.trans hconfirmed.symm⟩
  intro e he
  cases h with
  | committed hmerged =>
      rw [List.mem_singleton.mp he]
      exact ⟨rfl, _, List.mem_singleton.mpr rfl, Server.id_of_identity (Server.identity_of_bind hmerged)⟩
  | failed _ hidentity =>
      rw [List.mem_singleton.mp he]
      exact ⟨rfl, _, List.mem_singleton.mpr rfl, Server.id_of_identity hidentity⟩
  | failedKept _ _ =>
      rw [List.mem_singleton.mp he]
      exact ⟨rfl, _, List.mem_singleton.mpr rfl, rfl⟩
  | undone _ hidentity =>
      rw [List.mem_singleton.mp he]
      exact ⟨rfl, hundone hjob (Server.id_of_identity hidentity)⟩
  | undoneKept _ _ =>
      rw [List.mem_singleton.mp he]
      exact ⟨rfl, hundone hjob rfl⟩
  | stopped _ hid =>
      rw [List.mem_singleton.mp he]
      exact ⟨rfl, _, List.mem_singleton.mpr rfl, hid⟩
  | uncommitted _ _ | stopFailed _ =>
      cases he
  | @swept sweep _ _ _ hsweeps =>
      rcases hsweeps.about e he with ⟨p, hp, hid⟩
      exact ⟨(hsweeps.quiet e he).left, _, List.mem_map.mpr ⟨p.1, (List.of_mem_zip hp).left, rfl⟩,
        hid.symm⟩

theorem resume_touchesOnly (env : Env) (h : (c.books placed).Sound) {job : Job}
    (hjob : job.Fits (c.books placed)) {call : AgentCall} (hcalls : job.calls = [call])
    (replies : List Reply) : c.TouchesOnly (c.resume env job replies).1 call.server.id := by
  rcases resumes_resume env h hjob replies with ⟨es, hresumes, hedited⟩
  apply touchesOnly_of_edited h hedited
  intro e he
  rcases hresumes.asked hjob e he with ⟨hbegun, asked, hasked, hid⟩
  rw [hcalls, List.mem_singleton] at hasked
  exact ⟨hbegun, hasked ▸ hid⟩

theorem Handles.touchesOnly {job : Job} {replies : List Reply} {call : AgentCall}
    {c₁ c₂ : Controller} (hhandles : c.Handles env job replies call c₁ c₂)
    (h : (c.books placed).Sound) (hjob : job.Fits (c.books placed)) :
    c₁.TouchesOnly c₂ call.server.id := by
  cases hhandles with
  | start =>
      exact resume_touchesOnly env h hjob rfl replies
  | stop =>
      exact resume_touchesOnly env h hjob rfl replies
  | @attach sweep _ before after s reply hreplies =>
      have hpairs := hjob.pairs replies
      rw [hreplies] at hpairs
      have hfirst := hpairs (s, reply) (List.mem_append_right _ List.mem_cons_self)
      have hbefore := settleAll_keeps env h before
        (fun p hp => hpairs p (List.mem_append_left _ hp)) .empty
      rw [settleAll_append]
      apply settle_touchesOnly env hbefore.left hfirst.left
      intro hmem
      exact hfirst.right ((hbefore.right.left s.id).mp hmem)

theorem placed_of_mem_calls {b : Books} {job : Job} (hjob : job.Fits b) {call : AgentCall}
    (hcall : call ∈ job.calls) : call.server.identity ∈ b.placed := by
  cases job with
  | start work =>
      cases work with
      | launching l =>
          rw [List.mem_singleton.mp hcall]
          exact hjob.left
      | undoing u =>
          rw [List.mem_singleton.mp hcall]
          exact (hjob.right.right u rfl).left ▸ hjob.left
  | stop k =>
      rw [List.mem_singleton.mp hcall]
      exact hjob.left
  | attach sweep =>
      rcases List.mem_map.mp hcall with ⟨s, hs, rfl⟩
      exact (hjob.right s hs).left

/-!
# Another answer
-/

theorem mem_zip_set {owned : List Server} {replies : List Reply} {i : Nat} (hi : owned[i]? = some s)
    (reply : Reply) {p : Server × Reply} (hp : p.1.id ≠ s.id) :
    p ∈ owned.zip (replies.set i reply) ↔ p ∈ owned.zip replies := by
  simp only [List.mem_iff_getElem?, List.getElem?_zip_eq_some]
  apply exists_congr
  intro j
  apply and_congr_right
  intro hj
  have hne : i ≠ j := by
    intro hij
    rw [← hij, hi] at hj
    exact hp (congrArg Server.id (Option.some.inj hj)).symm
  rw [List.getElem?_set_ne hne]

theorem get?_finishAttach_set (env : Env) (h : (c.books placed).Sound) {sweep : Sweep}
    (hjob : (Job.attach sweep).Fits (c.books placed)) (replies : List Reply) {i : Nat}
    (hi : sweep.owned[i]? = some s) (reply : Reply) (hid : id ≠ s.id) :
    (c.finishAttach env sweep (replies.set i reply)).1.store.get? id =
      (c.finishAttach env sweep replies).1.store.get? id := by
  by_cases hasked : ∃ p ∈ sweep.owned.zip replies, p.1.id = id
  · rcases hasked with ⟨p, hp, rfl⟩
    have hp' := (mem_zip_set hi reply hid).mpr hp
    have hset := get?_settleAll env h _ (hjob.pairs (replies.set i reply))
      (hjob.nodup_pairs (replies.set i reply)) .empty hp'
    have hget := get?_settleAll env h _ (hjob.pairs replies) (hjob.nodup_pairs replies) .empty hp
    exact hset.trans hget.symm
  · have hothers : ∀ p ∈ sweep.owned.zip replies, p.1.id ≠ id := fun p hp hsame =>
      hasked ⟨p, hp, hsame⟩
    have hothers' : ∀ p ∈ sweep.owned.zip (replies.set i reply), p.1.id ≠ id := by
      intro p hp hsame
      exact hothers p ((mem_zip_set hi reply (hsame ▸ hid)).mp hp) hsame
    have hset := settleAll_keeps env h _ (hjob.pairs (replies.set i reply)) .empty
    have hget := settleAll_keeps env h _ (hjob.pairs replies) .empty
    exact (hset.right.right id hothers').trans (hget.right.right id hothers).symm

/-- Had a call been answered otherwise, nothing would be different but its own server. -/
theorem resume_set (env : Env) (h : (c.books placed).Sound) {job : Job}
    (hjob : job.Fits (c.books placed)) (replies : List Reply) {i : Nat} {call : AgentCall}
    (hcall : job.calls[i]? = some call) (reply : Reply) :
    (c.resume env job replies).1.AlikeApartFrom (c.resume env job (replies.set i reply)).1
      call.server := by
  have hsound (replies : List Reply) : ((c.resume env job replies).1.books placed).Sound := by
    rcases resumes_resume env h hjob replies with ⟨es, _, hedited⟩
    exact hedited.sound h
  have hmem : call ∈ job.calls := List.mem_of_getElem? hcall
  apply alikeApartFrom_of_records (hsound replies) (hsound _) (placed_of_mem_calls hjob hmem)
  intro id hid
  have hsingle (hcalls : job.calls = [call]) :
      (c.resume env job (replies.set i reply)).1.store.get? id =
        (c.resume env job replies).1.store.get? id :=
    ((resume_touchesOnly env h hjob hcalls _).record id hid).trans
      ((resume_touchesOnly env h hjob hcalls replies).record id hid).symm
  cases job with
  | start work =>
      exact hsingle (by rw [List.mem_singleton.mp hmem]; rfl)
  | stop k =>
      exact hsingle (by rw [List.mem_singleton.mp hmem]; rfl)
  | attach sweep =>
      rcases Option.map_eq_some_iff.mp (List.getElem?_map.symm.trans hcall) with ⟨s, hs, rfl⟩
      exact get?_finishAttach_set env h hjob replies hs reply hid

end Controller

namespace Fleet

theorem mem_placed_of_run (settings : ControlSettings) (moves more : List Move) {a : Identity}
    (ha : a ∈ (run settings moves).placed) : a ∈ (run settings (moves ++ more)).placed := by
  induction more using List.reverseRecOn with
  | nil =>
      rw [List.append_nil]
      exact ha
  | append_singleton more move ih =>
      rw [← List.append_assoc, run_snoc]
      rcases (sound_run settings (moves ++ more)).goes move with ⟨now, es, hgoes⟩
      exact hgoes.mem_placed ih

theorem identity_of_run (settings : ControlSettings) (moves more : List Move) {id : ServerId}
    {s r : Server} (hs : (run settings moves).controller.store.get? id = some s)
    (hr : (run settings (moves ++ more)).controller.store.get? id = some r) :
    r.identity = s.identity := by
  have h := (sound_run settings moves).books
  have h' := (sound_run settings (moves ++ more)).books
  have hs := Store.mem_of_get? hs
  have hr := Store.mem_of_get? hr
  exact h'.identity_eq (h'.placed r hr.left)
    (mem_placed_of_run settings moves more (h.placed s hs.left)) (hr.right.trans hs.right.symm)

/-- Whatever hosts answer in a run: what identifies a server stays from its placement to its removal, and
no two servers are in one place.  The step that handles the answer to a call touches the server that
was asked about and no other, places none, and gives no number back but that of this server, with
its record.  Had the answer been another one, no other record and no other number would differ. -/
theorem hosts_are_confined (settings : ControlSettings) (moves : List Move) :
    (∀ more id s r, (run settings moves).controller.store.get? id = some s →
      (run settings (moves ++ more)).controller.store.get? id = some r →
      r.group = s.group ∧ r.serverType = s.serverType ∧ r.number = s.number ∧
        r.hostId = s.hostId ∧ r.createdAt = s.createdAt) ∧
    (∀ a ∈ (run settings moves).controller.store.index,
      ∀ b ∈ (run settings moves).controller.store.index,
        a.group = b.group → a.number = b.number → a = b) ∧
    ∀ t order job env replies, (run settings moves).tasks t = some ⟨order, .asking job⟩ →
      (∀ call c₁ c₂, (run settings moves).controller.Handles env job replies call c₁ c₂ →
        c₁.TouchesOnly c₂ call.server.id) ∧
      ∀ i call reply, job.calls[i]? = some call →
        ((run settings moves).controller.resume env job replies).1.AlikeApartFrom
          ((run settings moves).controller.resume env job (replies.set i reply)).1 call.server := by
  have h := sound_run settings moves
  refine ⟨?_, ?_, ?_⟩
  · intro more id s r hs hr
    have hidentity := identity_of_run settings moves more hs hr
    exact ⟨congrArg Identity.group hidentity, congrArg Identity.serverType hidentity,
      congrArg Identity.number hidentity, congrArg Identity.hostId hidentity,
      congrArg Identity.createdAt hidentity⟩
  · intro a ha b hb hgroup hnumber
    exact h.books.store.eq_of_place ha hb (Prod.ext hgroup hnumber)
  · intro t order job env replies htask
    have hjob : job.Fits (run settings moves).books := h.fits t _ htask
    constructor
    · intro call c₁ c₂ hhandles
      exact hhandles.touchesOnly h.books hjob
    · intro i call reply hcall
      exact Controller.resume_set env h.books hjob replies hcall reply

end Fleet
end ServerFleet
