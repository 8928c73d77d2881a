import ServerFleet.Proofs.Fleet.Trials

/-!
# What a pass accounts for

A pass has the fleet to itself, but hosts may answer anything and the database may refuse
any write.  The turn of a group is an induction on the starts that are still wanted, and
the pass one on the groups to come.  What was added in the turn of a group leaves alone
what the others need, also if a start has failed and its record is still there.
-/

namespace ServerFleet

def FleetEvent.scalesUp : FleetEvent → Bool
  | .start _ .scaleUp _ => true
  | _ => false

namespace Fleet

def attempt (p : Nat) (w : Fleet) (a : Attempt) : Fleet :=
  match w.passes p with
  | some (.waiting _ start) =>
      ([a.begun, a.launched, a.terminated].foldl (goAt a.answer start) w).goPass p
  | _ => w

def passThrough (p : Nat) (attempts : List Attempt) (w : Fleet) : Fleet :=
  attempts.foldl (attempt p) (w.goPass p)

/-- A fleet has come out of another one by the starts of a pass, one after the other. -/
structure Accounts (w w' : Fleet) (trials : List Trial) : Prop where
  sound : w'.Sound
  gains : w.controller.Gains w'.controller (trials.flatMap Trial.added) (trials.flatMap Trial.log)
  fair : ∀ r ∈ trials, r.Fair
  next : w'.next = w.next + trials.length
  older : ∀ u, u < w.next → w'.tasks u = w.tasks u
  ended : ∀ i r, trials[i]? = some r →
    w'.tasks (w.next + i) = some ⟨.start r.group.name .scaleUp, .ended (.server r.result)⟩
  placed : ∀ id ∈ w'.placed.map Identity.id,
    id ∈ w.placed.map Identity.id ∨ ∃ r ∈ trials, id = r.attempt.id

structure Offers (w : Fleet) (attempts : List Attempt) : Prop where
  nodup : (attempts.map Attempt.id).Nodup
  fresh : ∀ a ∈ attempts, a.id ∉ w.placed.map Identity.id

variable {w w' w'' : Fleet} {p : Nat} {g : Group} {a : Attempt} {r : Trial} {trials more : List Trial}
  {attempts : List Attempt}

/-!
# The trials of a pass
-/

theorem Accounts.refl (h : w.Sound) : w.Accounts w [] where
  sound := h
  gains := .refl w.controller
  fair := fun _ hr => (List.not_mem_nil hr).elim
  next := rfl
  older := fun _ _ => rfl
  ended := by
    intro i r hr
    cases hr
  placed := fun _ hid => Or.inl hid

theorem Accounts.append (h : w.Accounts w' trials) (h' : w'.Accounts w'' more) :
    w.Accounts w'' (trials ++ more) where
  sound := h'.sound
  gains := by
    rw [List.flatMap_append, List.flatMap_append]
    exact h.gains.trans h'.gains
  fair := by
    intro r hr
    rcases List.mem_append.mp hr with hr | hr
    · exact h.fair r hr
    · exact h'.fair r hr
  next := by
    rw [h'.next, h.next, List.length_append, Nat.add_assoc]
  older := by
    intro u hu
    rw [h'.older u (h.next ▸ Nat.lt_add_right _ hu), h.older u hu]
  ended := by
    intro i r hr
    by_cases hi : i < trials.length
    · rw [List.getElem?_append_left hi] at hr
      rw [h'.older (w.next + i) (h.next ▸ Nat.add_lt_add_left hi _)]
      exact h.ended i r hr
    · have hle := Nat.le_of_not_lt hi
      rw [List.getElem?_append_right hle] at hr
      have hended := h'.ended _ r hr
      rw [h.next, Nat.add_assoc, Nat.add_sub_cancel' hle] at hended
      exact hended
  placed := by
    intro id hid
    rcases h'.placed id hid with hid | ⟨r, hr, hsame⟩
    · rcases h.placed id hid with hid | ⟨r, hr, hsame⟩
      · exact Or.inl hid
      · exact Or.inr ⟨r, List.mem_append_left _ hr, hsame⟩
    · exact Or.inr ⟨r, List.mem_append_right _ hr, hsame⟩

theorem Accounts.offers (h : w.Accounts w' trials) (hoffers : w.Offers attempts)
    (htaken : trials.map Trial.attempt = attempts.take trials.length) :
    w'.Offers (attempts.drop trials.length) where
  nodup := hoffers.nodup.sublist ((List.drop_sublist _ _).map Attempt.id)
  fresh := by
    intro a ha hmem
    rcases h.placed a.id hmem with hold | ⟨r, hr, hsame⟩
    · exact hoffers.fresh a (List.mem_of_mem_drop ha) hold
    · have hearlier : r.attempt ∈ attempts.take trials.length :=
        htaken ▸ List.mem_map_of_mem hr
      have hnodup := hoffers.nodup
      rw [← List.take_append_drop trials.length attempts, List.map_append] at hnodup
      exact (List.nodup_append.mp hnodup).right.right _ (List.mem_map_of_mem hearlier) _
        (List.mem_map_of_mem ha) hsame.symm

theorem Stands.accounts {pass : Pass} (h : Stands (w.advancePass p (.waiting pass)) w' w.next
      (.start r.group.name .scaleUp) r.attempt.id (.ended (.server r.result)) r.added r.log)
    (hfair : r.Fair) : w.Accounts w' [r] := by
  constructor
  case sound =>
    exact h.sound
  case gains =>
    rw [List.flatMap_singleton, List.flatMap_singleton]
    exact h.gains
  case fair =>
    intro other hother
    rw [List.mem_singleton.mp hother]
    exact hfair
  case next =>
    exact h.next
  case older =>
    intro u hu
    rw [h.others u (Nat.ne_of_lt hu)]
    exact Function.update_of_ne (Nat.ne_of_lt hu) _ _
  case ended =>
    intro i other hother
    cases i with
    | zero =>
        cases hother
        exact h.task
    | succ i =>
        cases hother
  case placed =>
    intro id hid
    rcases h.placed id hid with hold | hnew
    · exact Or.inl hold
    · exact Or.inr ⟨r, List.mem_singleton.mpr rfl, hnew⟩

theorem attempt_accounts (p : Nat) (h : w.Sound) (hfresh : a.id ∉ w.placed.map Identity.id)
    (hgroup : w.controller.store.database.findGroup g.name = .ok (some g)) (wanted : Nat)
    (rest : List Group) (stats : PassStats) :
    ∃ (w' : Fleet) (r : Trial), r.group = g ∧ r.attempt = a ∧ w.Accounts w' [r] ∧
      attempt p (w.advancePass p (.waiting ⟨g, wanted, rest, stats⟩)) a =
        w'.advancePass p (w'.controller.resumePass ⟨g, wanted, rest, stats⟩ r.result) := by
  have hpass : (w.advancePass p (.waiting ⟨g, wanted, rest, stats⟩)).passes p =
      some (.waiting ⟨g, wanted, rest, stats⟩ w.next) :=
    Function.update_self _ _ _
  have hstands : Stands (w.advancePass p (.waiting ⟨g, wanted, rest, stats⟩))
      (w.advancePass p (.waiting ⟨g, wanted, rest, stats⟩)) w.next (.start g.name .scaleUp) a.id .ordered
      [] [] :=
    { sound := h.advancePass p _
      gains := .refl _
      task := Function.update_self _ _ _
      others := fun _ _ => rfl
      next := rfl
      passes := rfl
      placed := fun _ hid => Or.inl hid }
  rcases hstands.trial hfresh hgroup with ⟨r, rfl, rfl, hfair, hended⟩
  rw [attempt, hpass]
  exact ⟨_, r, rfl, rfl, hended.accounts hfair,
    goPass_of_waiting (hended.passes.symm ▸ hpass) hended.task⟩

/-!
# The turn of a group
-/

structure Turn where
  group : Group
  trials : List Trial

def Turn.failed (turn : Turn) : Bool :=
  turn.trials.any fun r => !r.result.isOk

def Trial.committed? (r : Trial) : Option Server :=
  r.result.toOption

/-- In its turn a group was to get a number of servers, and only an error has ended the turn before. -/
structure Turn.Taken (turn : Turn) (n : Nat) : Prop where
  own : ∀ r ∈ turn.trials, r.group = turn.group
  length_le : turn.trials.length ≤ n
  complete : turn.failed = false → turn.trials.length = n
  ended : ∀ r ∈ turn.trials.dropLast, r.result.isOk = true

end Fleet

open Fleet in
def PassStats.after (stats : PassStats) (turns : List Turn) : PassStats where
  processed := stats.processed + turns.countP fun turn => !turn.failed
  failed := stats.failed + turns.countP Turn.failed
  started := stats.started + (turns.flatMap Turn.trials).countP fun r => r.result.isOk

namespace Fleet

variable {w w' w'' : Fleet} {p : Nat} {g : Group} {trials : List Trial} {attempts : List Attempt} {r : Trial}
  {stats : PassStats}

theorem after_append (stats : PassStats) (turns later : List Turn) :
    (stats.after turns).after later = stats.after (turns ++ later) := by
  simp only [PassStats.after, List.countP_append, List.flatMap_append, Nat.add_assoc]

theorem after_over (stats : PassStats) (g : Group) :
    stats.after [⟨g, []⟩] = { stats with processed := stats.processed + 1 } :=
  rfl

theorem after_error {e : ControlError} (h : r.result = .error e) (stats : PassStats) (g : Group) :
    stats.after [⟨g, [r]⟩] = { stats with failed := stats.failed + 1 } := by
  simp [PassStats.after, Turn.failed, h, Except.isOk, Except.toBool]

theorem after_ok {s : Server} (h : r.result = .ok s) (stats : PassStats) (g : Group) (trials : List Trial) :
    stats.after [⟨g, r :: trials⟩] =
      ({ stats with started := stats.started + 1 } : PassStats).after [⟨g, trials⟩] := by
  have hfailed : Turn.failed ⟨g, r :: trials⟩ = Turn.failed ⟨g, trials⟩ := by
    simp [Turn.failed, h, Except.isOk, Except.toBool]
  simp only [PassStats.after, hfailed, List.flatMap_singleton, List.countP_cons, h, Except.isOk,
    Except.toBool, if_true]
  rw [Nat.add_assoc, Nat.add_comm 1]

theorem taken_nil (g : Group) : Turn.Taken ⟨g, []⟩ 0 where
  own := fun _ hr => (List.not_mem_nil hr).elim
  length_le := Nat.le_refl _
  complete := fun _ => rfl
  ended := fun _ hr => (List.not_mem_nil hr).elim

theorem taken_error {e : ControlError} (hg : r.group = g) (h : r.result = .error e) {n : Nat}
    (hn : 0 < n) : Turn.Taken ⟨g, [r]⟩ n where
  own := List.forall_mem_singleton.mpr hg
  length_le := hn
  complete := by
    intro hfailed
    simp [Turn.failed, h, Except.isOk, Except.toBool] at hfailed
  ended := by
    intro other hother
    cases hother

theorem Turn.Taken.cons {s : Server} {n : Nat} (hrest : Turn.Taken ⟨g, trials⟩ n) (hg : r.group = g)
    (h : r.result = .ok s) : Turn.Taken ⟨g, r :: trials⟩ (n + 1) where
  own := List.forall_mem_cons.mpr ⟨hg, hrest.own⟩
  length_le := Nat.succ_le_succ hrest.length_le
  complete := by
    intro hfailed
    have hokay : Turn.failed ⟨g, trials⟩ = false := by
      simpa [Turn.failed, h, Except.isOk, Except.toBool] using hfailed
    exact congrArg Nat.succ (hrest.complete hokay)
  ended := by
    intro other hother
    cases trials with
    | nil =>
        cases hother
    | cons next later =>
        rw [List.dropLast_cons_of_ne_nil (List.cons_ne_nil _ _)] at hother
        rcases List.mem_cons.mp hother with rfl | hother
        · rw [h]
          rfl
        · exact hrest.ended other hother

theorem turn_accounts (p : Nat) (h : w.Sound) (hoffers : w.Offers attempts)
    (hgroup : w.controller.store.database.findGroup g.name = .ok (some g)) (wanted : Nat)
    (rest : List Group) (stats : PassStats) {n : Nat}
    (hn : n = min wanted (g.maxOnline.toNat - w.controller.store.countInGroup g.name))
    (hattempts : n ≤ attempts.length) :
    ∃ (w' : Fleet) (trials : List Trial),
      attempts.foldl (attempt p) (w.advancePass p (w.controller.turnOf g wanted rest stats)) =
        (attempts.drop trials.length).foldl (attempt p) (w'.advancePass p
          (w'.controller.passGroups (stats.after [⟨g, trials⟩]) rest)) ∧
        w.Accounts w' trials ∧ Turn.Taken ⟨g, trials⟩ n ∧
        trials.map Trial.attempt = attempts.take trials.length := by
  induction wanted generalizing w attempts stats n with
  | zero =>
      rw [Nat.zero_min] at hn
      subst hn
      refine ⟨w, [], ?_, .refl h, taken_nil g, rfl⟩
      rw [Controller.turnOf_over (Or.inl rfl), after_over]
      rfl
  | succ wanted ih =>
      by_cases hroom : w.controller.store.countInGroup g.name < g.maxOnline.toNat
      · obtain ⟨n', rfl⟩ : ∃ n', n = n' + 1 := ⟨n - 1, by omega⟩
        cases attempts with
        | nil =>
            cases hattempts
        | cons a attempts =>
            rcases attempt_accounts p h (hoffers.fresh a List.mem_cons_self) hgroup wanted rest stats with
              ⟨w', r, hg, ha, haccounts, hgo⟩
            have htaken : [r].map Trial.attempt = (a :: attempts).take [r].length := by
              rw [← ha]
              rfl
            rw [Controller.turnOf_start hroom, List.foldl_cons, hgo]
            cases hresult : r.result with
            | error e =>
                refine ⟨w', [r], ?_, haccounts, taken_error hg hresult (Nat.succ_pos n'), htaken⟩
                rw [after_error hresult]
                rfl
            | ok s =>
                have hcount : w'.controller.store.countInGroup g.name =
                    w.controller.store.countInGroup g.name + 1 := by
                  have hfair := (haccounts.fair r (List.mem_singleton.mpr rfl)).of_ok hresult
                  rw [haccounts.gains.countInGroup, List.flatMap_singleton, hfair.added,
                    List.filter_singleton, hfair.group, hg, beq_self_eq_true]
                  rfl
                have hgroup' : w'.controller.store.database.findGroup g.name = .ok (some g) :=
                  (haccounts.gains.findGroup g.name).trans hgroup
                -- One start less is wanted and one place less is free, so one less is to come.
                rcases ih haccounts.sound (haccounts.offers hoffers htaken) hgroup'
                  { stats with started := stats.started + 1 } (by omega)
                  (Nat.le_of_succ_le_succ hattempts) with ⟨w'', trials, hrest, hlater, hturn, htakenlater⟩
                refine ⟨w'', r :: trials, ?_, haccounts.append hlater, hturn.cons hg hresult, ?_⟩
                · rw [after_ok hresult]
                  exact hrest
                · rw [List.map_cons, ha, htakenlater]
                  rfl
      · rw [Nat.sub_eq_zero_of_le (Nat.le_of_not_lt hroom), Nat.min_zero] at hn
        subst hn
        refine ⟨w, [], ?_, .refl h, taken_nil g, rfl⟩
        rw [Controller.turnOf_over (Or.inr (Nat.le_of_not_lt hroom)), after_over]
        rfl

/-!
# All turns
-/

theorem foldl_attempt_of_ended {result : Except StoreError PassStats}
    (h : w.passes p = some (.ended result)) (attempts : List Attempt) :
    attempts.foldl (attempt p) w = w := by
  induction attempts with
  | nil =>
      rfl
  | cons a attempts ih =>
      rw [List.foldl_cons, attempt, h]
      exact ih

/-- A pass gets to its end.  Each of its groups has had one turn, in their order. -/
theorem pass_turns (p : Nat) (h : w.Sound) (hoffers : w.Offers attempts) {gs : List Group}
    (stats : PassStats) (hnames : (gs.map Group.name).Nodup)
    (hgroups : ∀ g ∈ gs, w.controller.store.database.findGroup g.name = .ok (some g))
    (hattempts : (gs.map w.controller.need).sum ≤ attempts.length) :
    ∃ (w' : Fleet) (turns : List Turn),
      attempts.foldl (attempt p) (w.advancePass p (w.controller.passGroups stats gs)) =
        w'.advancePass p (.done (stats.after turns)) ∧
        turns.map Turn.group = gs ∧ w.Accounts w' (turns.flatMap Turn.trials) ∧
        ∀ turn ∈ turns, turn.Taken (w.controller.need turn.group) := by
  induction gs generalizing w attempts stats with
  | nil =>
      refine ⟨w, [], ?_, rfl, .refl h, fun _ hturn => (List.not_mem_nil hturn).elim⟩
      exact foldl_attempt_of_ended (Function.update_self _ _ _) attempts
  | cons g rest ih =>
      rw [List.map_cons, List.nodup_cons] at hnames
      rw [List.map_cons, List.sum_cons] at hattempts
      have hturn : w.controller.passGroups stats (g :: rest) =
          w.controller.turnOf g (w.controller.wantedIn g) rest stats := rfl
      rcases turn_accounts p h hoffers (hgroups g List.mem_cons_self) (w.controller.wantedIn g) rest stats
        (n := w.controller.need g) rfl (by omega) with ⟨w₁, trials, hfirst, haccounts, htaken, hmade⟩
      -- What was added stands in this group, so what the rest needs is as before its turn.
      have hneeds : ∀ other ∈ rest, w₁.controller.need other = w.controller.need other := by
        intro other hother
        apply haccounts.gains.need_eq
        intro s hs hsame
        rcases List.mem_flatMap.mp hs with ⟨r, hr, hadded⟩
        rw [(haccounts.fair r hr).group_of_added hadded, htaken.own r hr] at hsame
        exact hnames.left (hsame ▸ List.mem_map_of_mem hother)
      have hgroups' : ∀ g ∈ rest, w₁.controller.store.database.findGroup g.name = .ok (some g) := by
        intro other hother
        rw [haccounts.gains.findGroup]
        exact hgroups other (List.mem_cons_of_mem g hother)
      have hleft : (rest.map w₁.controller.need).sum ≤ (attempts.drop trials.length).length := by
        have hle := htaken.length_le
        rw [List.map_congr_left hneeds, List.length_drop]
        simp only at hle
        omega
      rcases ih haccounts.sound (haccounts.offers hoffers hmade) (stats.after [⟨g, trials⟩]) hnames.right
        hgroups' hleft with ⟨w', turns, hlater, hmap, hrest, hturns⟩
      refine ⟨w', ⟨g, trials⟩ :: turns, ?_, congrArg (g :: ·) hmap, haccounts.append hrest, ?_⟩
      · rw [hturn, hfirst, hlater, after_append]
        rfl
      · intro turn hmem
        rcases List.mem_cons.mp hmem with rfl | hmem
        · exact htaken
        · rw [← hneeds turn.group (hmap ▸ List.mem_map_of_mem hmem)]
          exact hturns turn hmem

/-!
# The whole pass
-/

theorem length_log (hfair : ∀ r ∈ trials, r.Fair) :
    (trials.flatMap Trial.log).length = trials.countP fun r => r.result.isOk := by
  induction trials with
  | nil =>
      rfl
  | cons r rest ih =>
      rw [List.flatMap_cons, List.length_append, List.countP_cons,
        ih fun other hother => hfair other (List.mem_cons_of_mem r hother), Nat.add_comm]
      cases hfair r List.mem_cons_self with
      | committed _ _ | failed | kept _ _ _ =>
          rfl

theorem scalesUp_of_mem_log (hfair : ∀ r ∈ trials, r.Fair) {e : FleetEvent}
    (he : e ∈ trials.flatMap Trial.log) : e.scalesUp = true := by
  rcases List.mem_flatMap.mp he with ⟨r, hr, he⟩
  cases hfair r hr with
  | committed _ _ =>
      rw [List.mem_singleton.mp he]
      rfl
  | failed | kept _ _ _ =>
      cases he

theorem length_committed (trials : List Trial) :
    (trials.filterMap Trial.committed?).length = trials.countP fun r => r.result.isOk := by
  rw [List.length_filterMap_eq_countP]
  apply List.countP_congr
  intro r _
  rw [Trial.committed?]
  cases r.result <;> rfl

theorem committed_sublist (hfair : ∀ r ∈ trials, r.Fair) :
    (trials.filterMap Trial.committed?).Sublist (trials.flatMap Trial.added) := by
  induction trials with
  | nil =>
      exact .slnil
  | cons r rest ih =>
      have hrest := ih fun other hother => hfair other (List.mem_cons_of_mem r hother)
      rw [List.flatMap_cons]
      cases hfair r List.mem_cons_self with
      | committed _ _ =>
          exact hrest.cons_cons _
      | failed =>
          exact hrest
      | kept _ _ _ =>
          exact hrest.cons _

/-- What a pass over some groups has done, and what it says of it, told by its turns. -/
structure Accounted (w w' : Fleet) (groups : List Group) (turns : List Turn) (stats : PassStats) : Prop where
  visits : turns.map Turn.group = groups
  taken : ∀ turn ∈ turns, turn.Taken (w.controller.need turn.group)
  fair : ∀ turn ∈ turns, ∀ r ∈ turn.trials, r.Fair
  tasks : ∀ i r, (turns.flatMap Turn.trials)[i]? = some r →
    w'.tasks (w.next + i) = some ⟨.start r.group.name .scaleUp, .ended (.server r.result)⟩
  next : w'.next = w.next + (turns.flatMap Turn.trials).length
  all : stats.processed + stats.failed = groups.length
  failed : stats.failed = turns.countP Turn.failed
  committed : ((turns.flatMap Turn.trials).filterMap Trial.committed?).length = stats.started
  added : ((turns.flatMap Turn.trials).filterMap Trial.committed?).Sublist
    ((turns.flatMap Turn.trials).flatMap Trial.added)
  index : w'.controller.store.index =
    w.controller.store.index ++ (turns.flatMap Turn.trials).flatMap Trial.added
  events : w'.events = w.events ++ (turns.flatMap Turn.trials).flatMap Trial.log
  started : ((turns.flatMap Turn.trials).flatMap Trial.log).length = stats.started ∧
    ∀ e ∈ (turns.flatMap Turn.trials).flatMap Trial.log, e.scalesUp = true
  kept : ∀ s ∈ w.controller.store.index, w'.controller.store.get? s.id = some s ∧
    ServerRow.ofServer s ∈ w'.controller.store.database.servers

theorem Accounts.over (h : w.Accounts w' trials) (p : Nat) (stats : PassStats) :
    w.Accounts (w'.advancePass p (.done stats)) trials where
  sound := h.sound.advancePass p _
  gains := h.gains
  fair := h.fair
  next := h.next
  older := h.older
  ended := h.ended
  placed := h.placed

theorem Accounts.accounted {turns : List Turn} {stats : PassStats}
    (h : w.Accounts w' (turns.flatMap Turn.trials))
    (htaken : ∀ turn ∈ turns, turn.Taken (w.controller.need turn.group))
    (hstats : stats = PassStats.after ⟨0, 0, 0⟩ turns) :
    w.Accounted w' (turns.map Turn.group) turns stats := by
  have hstarted : stats.started = (turns.flatMap Turn.trials).countP fun r => r.result.isOk := by
    rw [hstats]
    exact Nat.zero_add _
  constructor
  case visits =>
    rfl
  case taken =>
    exact htaken
  case fair =>
    intro turn hturn r hr
    exact h.fair r (List.mem_flatMap.mpr ⟨turn, hturn, hr⟩)
  case tasks =>
    exact h.ended
  case next =>
    exact h.next
  case all =>
    rw [hstats, PassStats.after, Nat.zero_add, Nat.zero_add, List.length_map, Nat.add_comm,
      List.length_eq_countP_add_countP Turn.failed]
    simp only [Bool.not_eq_true, Bool.decide_eq_false]
  case failed =>
    rw [hstats]
    exact Nat.zero_add _
  case committed =>
    rw [hstarted, length_committed]
  case added =>
    exact committed_sublist h.fair
  case index =>
    exact h.gains.index
  case events =>
    exact h.gains.events
  case started =>
    exact ⟨(length_log h.fair).trans hstarted.symm, fun e he => scalesUp_of_mem_log h.fair he⟩
  case kept =>
    intro s hs
    have hlater : s ∈ w'.controller.store.index := by
      rw [h.gains.index]
      exact List.mem_append_left _ hs
    exact ⟨h.sound.books.store.get?_eq_some_iff.mpr ⟨hlater, rfl⟩, h.sound.books.store.mem_rows hlater⟩

theorem foldl_goAt_eq_steps (answer : AgentCall → Reply) (t : Nat) (moments : List Moment) (w : Fleet) :
    ∃ moves : List Move, moments.foldl (goAt answer t) w = moves.foldl step w := by
  induction moments generalizing w with
  | nil =>
      exact ⟨[], rfl⟩
  | cons m moments ih =>
      rcases ih (goAt answer t w m) with ⟨moves, hmoves⟩
      exact ⟨.weather _ _ m.refusal :: .go t m.env (w.repliesTo t answer) :: moves, hmoves⟩

theorem foldl_attempt_eq_steps (p : Nat) (attempts : List Attempt) (w : Fleet) :
    ∃ moves : List Move, attempts.foldl (attempt p) w = moves.foldl step w := by
  induction attempts generalizing w with
  | nil =>
      exact ⟨[], rfl⟩
  | cons a attempts ih =>
      have hfirst : ∃ moves : List Move, attempt p w a = moves.foldl step w := by
        rw [attempt]
        split
        next start _ =>
          rcases foldl_goAt_eq_steps a.answer start [a.begun, a.launched, a.terminated] w with
            ⟨moves, hmoves⟩
          refine ⟨moves ++ [.goPass p], ?_⟩
          rw [hmoves, List.foldl_append]
          rfl
        next =>
          exact ⟨[], rfl⟩
      rcases hfirst with ⟨moves, hmoves⟩
      rcases ih (attempt p w a) with ⟨more, hmore⟩
      exact ⟨moves ++ more, by rw [List.foldl_cons, hmore, hmoves, List.foldl_append]⟩

theorem passThrough_eq_run (p : Nat) (attempts : List Attempt) (settings : ControlSettings)
    (before : List Move) :
    ∃ moves, passThrough p attempts (run settings before) = run settings (before ++ moves) := by
  rcases foldl_attempt_eq_steps p attempts ((run settings before).goPass p) with ⟨moves, hmoves⟩
  refine ⟨.goPass p :: moves, ?_⟩
  rw [passThrough, hmoves, run, run, List.foldl_append]
  rfl

/-- A pass begins in any state of the fleet over groups that can be loaded, and has the fleet to itself.
Whatever hosts answer and whichever writes the database refuses, it gets to its end: every group has had
its turn once, in the order of the names, and an error of a start has ended the turn of its group and no
other.  What the pass says that it has processed, failed and started is what its turns, the records and
the events show, and nothing that was there before has changed. -/
theorem pass_accounts (settings : ControlSettings) (before : List Move) {p : Nat} {groups : List Group}
    {attempts : List Attempt} (hordered : (run settings before).passes p = some .ordered)
    (hgroups : (run settings before).controller.store.database.loadGroups = .ok groups)
    (hfiled : GroupRow.Filed (run settings before).controller.store.database.groups)
    (hoffers : (run settings before).Offers attempts)
    (hattempts : (groups.map (run settings before).controller.need).sum ≤ attempts.length) :
    let w := run settings before
    let w' := passThrough p attempts w
    (∃ moves, w' = run settings (before ++ moves)) ∧
      (groups.map Group.name).Pairwise (· < ·) ∧
      ∃ turns stats, w'.passes p = some (.ended (.ok stats)) ∧ w.Accounted w' groups turns stats := by
  intro w w'
  refine ⟨passThrough_eq_run p attempts settings before, Database.pairwise_names hfiled hgroups, ?_⟩
  rcases pass_turns p (sound_run settings before) hoffers ⟨0, 0, 0⟩
    (Database.nodup_names hfiled hgroups) (fun g hg => Database.findGroup_of_mem hfiled hgroups hg)
    hattempts with ⟨ended, turns, hpass, rfl, haccounts, htaken⟩
  have hended : w' = ended.advancePass p (.done (PassStats.after ⟨0, 0, 0⟩ turns)) := by
    rw [← goPass_of_ordered hordered hgroups] at hpass
    exact hpass
  rw [hended]
  exact ⟨turns, _, Function.update_self _ _ _, (haccounts.over p _).accounted htaken rfl⟩

namespace Lobby

open Overlap

def refusing : Moment where
  refusal := fun
    | .deleteServer _ => some "database is locked"
    | _ => none
  env := ⟨noon, server⟩

def unlucky : Attempt where
  begun := refusing
  launched := refusing
  terminated := refusing
  answer := fun _ => ⟨.error (.unreachable "no route"), noon⟩

theorem offers_before : (run settings before).Offers [unlucky] where
  nodup := List.nodup_singleton _
  fresh := List.forall_mem_singleton.mpr (by decide +kernel)

end Lobby

open Lobby Overlap in
theorem pass_accounts_lobby :
    let w := run settings before
    let w' := passThrough 1 [unlucky] w
    w.passes 1 = some .ordered ∧ w.controller.store.database.loadGroups = .ok [lobby] ∧
      w.Offers [unlucky] ∧
      ∃ turns stats, w'.passes 1 = some (.ended (.ok stats)) ∧ w.Accounted w' [lobby] turns stats ∧
        stats.processed + stats.failed = 1 := by
  intro w w'
  have hordered : w.passes 1 = some .ordered := rfl
  have hattempts : ([lobby].map w.controller.need).sum ≤ [unlucky].length := by
    rw [List.map_singleton, List.sum_singleton, need_before]
    exact Nat.le_refl 1
  rcases pass_accounts settings before hordered loads_before filed_before offers_before hattempts with
    ⟨_, _, turns, stats, hended, haccounted⟩
  exact ⟨hordered, loads_before, offers_before, turns, stats, hended, haccounted, haccounted.all⟩

end Fleet
end ServerFleet
