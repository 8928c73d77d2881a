import ServerFleet.Proofs.Fleet.Invariant

/-!
# Held numbers are those of live servers

In every state of every run a group holds the numbers of its servers and no others,
and so no write ever runs into the place of another server.
-/

namespace ServerFleet

theorem Books.Sound.held_eq {b : Books} (h : b.Sound) (group : String) :
    b.numbers.held group = (b.store.byGroup group).map fun s => s.number.toNat := by
  apply Numbers.held_eq_of_mem_iff h.tidy
  · rw [List.pairwise_map]
    apply (h.store.sorted_select _).imp_of_mem
    intro a a' ha ha' hbefore
    have hgroup : a.group = a'.group :=
      (Store.mem_byGroup.mp ha).right.trans (Store.mem_byGroup.mp ha').right.symm
    rcases hbefore with hless | ⟨_, hless⟩
    · exact absurd (hgroup ▸ hless) (String.lt_irrefl _)
    · exact UInt32.lt_iff_toNat_lt.mp hless
  · intro i
    rw [h.taken, List.mem_map]
    constructor
    · intro hi
      rcases hi with ⟨s, hs, hslot⟩
      cases hslot
      exact ⟨s, Store.mem_byGroup.mpr ⟨hs, rfl⟩, rfl⟩
    · intro hi
      rcases hi with ⟨s, hs, hnumber⟩
      rcases Store.mem_byGroup.mp hs with ⟨hs, hgroup⟩
      exact ⟨s, hs, Prod.ext hgroup hnumber⟩

namespace Fleet

/-- A write of a task has run into the place of another server: the first write of a start or an override
shows it in the result, a commit in what is left to undo, and a sweep in its report. -/
def Stage.Clashed : Stage → Prop
  | .ordered => False
  | .asking (.start (.undoing u)) => u.failure = some .numberTaken
  | .asking _ => False
  | .ended (.server result) => result = .error (.storage .numberTaken)
  | .ended (.attached _ report) => ∃ entry ∈ report.failed, entry.2 = .numberTaken

theorem Stage.Fits.not_clashed {stage : Stage} {b : Books} (h : stage.Fits b) : ¬ stage.Clashed := by
  intro hclashed
  cases stage with
  | ordered =>
      exact hclashed
  | asking job =>
      cases job with
      | start work =>
          cases work with
          | launching l =>
              exact hclashed
          | undoing u =>
              rcases (h.right.right u rfl).right with ⟨reason, hfailure⟩
              rw [Stage.Clashed, hfailure] at hclashed
              cases hclashed
      | stop k =>
          exact hclashed
      | attach sweep =>
          exact hclashed
  | ended outcome =>
      cases outcome with
      | server result =>
          rw [Stage.Clashed] at hclashed
          subst hclashed
          exact h
      | attached host report =>
          rcases hclashed with ⟨entry, hentry, htaken⟩
          exact h entry hentry htaken

theorem update_not_clashed {w : Fleet} (h : w.Sound) (env : Env) (id : ServerId)
    {change : Server → Server} (hchange : ∀ s, (change s).identity = s.identity) :
    (w.controller.update env id change).2 ≠ .error (.storage .numberTaken) := by
  rcases Controller.update_cases env h.books id hchange with
    ⟨e, hupdate, he⟩ | ⟨before, after, c', hupdate, _⟩
  · rw [hupdate]
    intro herror
    cases herror
    exact he
  · rw [hupdate]
    intro herror
    cases herror

/-- After every run each group holds the numbers of its servers and no others, no two servers share a
place, and no write has run or can run into the place of another server. -/
theorem held_numbers_are_live (settings : ControlSettings) (moves : List Move) :
    (∀ group, (run settings moves).controller.numbers.held group =
      ((run settings moves).controller.store.byGroup group).map fun s => s.number.toNat) ∧
    (∀ a ∈ (run settings moves).controller.store.index,
      ∀ b ∈ (run settings moves).controller.store.index,
        a.group = b.group → a.number = b.number → a = b) ∧
    (∀ t task, (run settings moves).tasks t = some task → ¬ task.stage.Clashed) ∧
    (∀ env id state, ((run settings moves).controller.setState env id state).2 ≠
      .error (.storage .numberTaken)) ∧
    ∀ env id key value, ((run settings moves).controller.setProperty env id key value).2 ≠
      .error (.storage .numberTaken) := by
  have h := sound_run settings moves
  refine ⟨h.books.held_eq, ?_, ?_, ?_, ?_⟩
  · intro a ha b hb hgroup hnumber
    exact h.books.store.eq_of_place ha hb (Prod.ext hgroup hnumber)
  · intro t task htask
    exact (h.fits t task htask).not_clashed
  · intro env id state
    exact update_not_clashed h env id fun _ => rfl
  · intro env id key value
    exact update_not_clashed h env id fun _ => rfl

end Fleet
end ServerFleet
