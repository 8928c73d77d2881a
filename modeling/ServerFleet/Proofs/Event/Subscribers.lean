import Mathlib.Data.List.Forall2
import Mathlib.Data.List.Induction
import ServerFleet.Event.Feed

/-!
# Subscribers

What the subscribers of a feed get while events are published, others subscribe and each
of them receives when it likes.  Every subscriber can account for every event from its
subscription up to the place it has reached: it has got the event, or notice of it among
those it has missed.
-/

namespace ServerFleet
namespace Feed

inductive Move where
  | publish (topic : String) (event : FleetEvent) (now : Time.Instant)
  | subscribe
  | receive (subscriber limit : Nat)

namespace Move

def isPublish : Move → Bool
  | .publish .. => true
  | _ => false

end Move

structure Subscriber where
  cursor : Cursor
  heard : List Delivery

structure Audience where
  feed : Feed
  subscribers : List Subscriber

def Subscriber.receive (feed : Feed) (limit : Nat) (s : Subscriber) : Subscriber :=
  let (deliveries, cursor) := feed.drain limit s.cursor
  ⟨cursor, s.heard ++ deliveries⟩

namespace Audience

def step (a : Audience) : Move → Audience
  | .publish topic event now => { a with feed := a.feed.publish topic event now }
  | .subscribe => { a with subscribers := a.subscribers ++ [⟨a.feed.subscribe, []⟩] }
  | .receive subscriber limit =>
      { a with subscribers := a.subscribers.modify subscriber (Subscriber.receive a.feed limit) }

def run (moves : List Move) : Audience :=
  moves.foldl step ⟨.empty, []⟩

end Audience

/-- What a delivery stands for, in order: its event, or as many unknown ones as were missed. -/
def Delivery.events : Delivery → List (Option Envelope)
  | .event e => [some e]
  | .lagged missed => List.replicate missed none

/-- A subscriber takes up to so many deliveries, one after the other as they are offered to it: it stops
early only if nothing is there for it. -/
inductive Takes (feed : Feed) : Nat → Subscriber → Subscriber → Prop where
  | full (s : Subscriber) : Takes feed 0 s s
  | nothing {limit : Nat} {s : Subscriber} (hnone : feed.receive? s.cursor = none) :
      Takes feed (limit + 1) s s
  | delivery {limit : Nat} {s s' : Subscriber} {delivery : Delivery} {cursor : Cursor}
      (hsome : feed.receive? s.cursor = some (delivery, cursor))
      (hrest : Takes feed limit ⟨cursor, s.heard ++ [delivery]⟩ s') :
      Takes feed (limit + 1) s s'

/-!
# The feed
-/

def Numbered (feed : Feed) : Prop :=
  ∀ k e, feed.published[k]? = some e → e.id.value.toNat = (k + 1) % UInt64.size

theorem size_publish (feed : Feed) (topic : String) (event : FleetEvent) (now : Time.Instant) :
    (feed.publish topic event now).published.size = feed.published.size + 1 :=
  Array.size_push _

theorem getElem?_publish {feed : Feed} {k : Nat} {e : Envelope} (h : feed.published[k]? = some e)
    (topic : String) (event : FleetEvent) (now : Time.Instant) :
    (feed.publish topic event now).published[k]? = some e := by
  have hk : k < feed.published.size := (Array.getElem?_eq_some_iff.mp h).choose
  rw [publish, Array.getElem?_push, if_neg (Nat.ne_of_lt hk), h]

theorem numbered_publish {feed : Feed} (h : Numbered feed) (topic : String) (event : FleetEvent)
    (now : Time.Instant) : Numbered (feed.publish topic event now) := by
  intro k e he
  rw [publish, Array.getElem?_push] at he
  split at he
  next hlast =>
    cases he
    rw [hlast]
    exact UInt64.toNat_ofNat'
  next =>
    exact h k e he

theorem receive?_eq (feed : Feed) (cursor : Cursor) :
    feed.receive? cursor =
      if cursor.next + feedCapacity < feed.published.size then
        some (.lagged (feed.published.size - feedCapacity - cursor.next),
          ⟨feed.published.size - feedCapacity⟩)
      else feed.published[cursor.next]?.map fun e => (.event e, ⟨cursor.next + 1⟩) := by
  have hlate : cursor.next < feed.published.size - feedCapacity ↔
      cursor.next + feedCapacity < feed.published.size := by omega
  simp only [receive?, hlate]
  split
  next =>
    rfl
  next =>
    cases feed.published[cursor.next]? <;> rfl

/-!
# One subscriber
-/

/-- What stands at the place of a number: the event with that number, if it is known. -/
def Stands (feed : Feed) (o : Option Envelope) (number : Nat) : Prop :=
  ∀ e ∈ o, ∃ k, number = k + 1 ∧ feed.published[k]? = some e

/-- A subscriber that came behind `start` events accounts for all numbers up to the place it has reached. -/
structure Accounts (feed : Feed) (start : Nat) (s : Subscriber) : Prop where
  start_le : start ≤ s.cursor.next
  next_le : s.cursor.next ≤ feed.published.size
  heard : List.Forall₂ (Stands feed) (s.heard.flatMap Delivery.events)
    (List.range' (start + 1) (s.cursor.next - start))

variable {feed : Feed} {cursor cursor' : Cursor} {delivery : Delivery} {start : Nat} {s : Subscriber}

theorem receive?_next_le (h : feed.receive? cursor = some (delivery, cursor')) :
    cursor.next ≤ cursor'.next ∧ cursor'.next ≤ feed.published.size := by
  rw [receive?_eq] at h
  split at h
  next hlate =>
    cases h
    simp only
    omega
  next =>
    rcases Option.map_eq_some_iff.mp h with ⟨e, he, hpair⟩
    have hlt := (Array.getElem?_eq_some_iff.mp he).choose
    cases hpair
    simp only
    omega

theorem stands_receive? (h : feed.receive? cursor = some (delivery, cursor')) :
    List.Forall₂ (Stands feed) delivery.events
      (List.range' (cursor.next + 1) (cursor'.next - cursor.next)) := by
  rw [receive?_eq] at h
  split at h
  next =>
    cases h
    rw [Delivery.events, List.forall₂_iff_get]
    refine ⟨by simp, ?_⟩
    intro i _ _ e he
    simp at he
  next =>
    rcases Option.map_eq_some_iff.mp h with ⟨e, he, hpair⟩
    cases hpair
    rw [Delivery.events, Nat.add_sub_cancel_left, List.range'_one]
    refine .cons ?_ .nil
    intro found hfound
    rw [← Option.some.inj hfound]
    exact ⟨cursor.next, rfl, he⟩

theorem receive_zero (feed : Feed) (s : Subscriber) : Subscriber.receive feed 0 s = s := by
  simp [Subscriber.receive, drain]

theorem receive_of_none (h : feed.receive? s.cursor = none) (limit : Nat) :
    Subscriber.receive feed (limit + 1) s = s := by
  simp [Subscriber.receive, drain, h]

theorem receive_of_some (h : feed.receive? s.cursor = some (delivery, cursor')) (limit : Nat) :
    Subscriber.receive feed (limit + 1) s =
      Subscriber.receive feed limit ⟨cursor', s.heard ++ [delivery]⟩ := by
  simp [Subscriber.receive, drain, h]

theorem Accounts.deliver (h : Accounts feed start s)
    (hreceive : feed.receive? s.cursor = some (delivery, cursor')) :
    Accounts feed start ⟨cursor', s.heard ++ [delivery]⟩ := by
  have hnext := receive?_next_le hreceive
  constructor
  case start_le =>
    exact Nat.le_trans h.start_le hnext.left
  case next_le =>
    exact hnext.right
  case heard =>
    -- The range is cut at the old place: what was heard before fills the front, the delivery the rest.
    have hstart := h.start_le
    have hcount : cursor'.next - start =
        (s.cursor.next - start) + (cursor'.next - s.cursor.next) := by omega
    have hfirst : start + 1 + (s.cursor.next - start) = s.cursor.next + 1 := by omega
    rw [List.flatMap_append, List.flatMap_singleton, hcount, ← List.range'_append_1, hfirst]
    exact List.rel_append h.heard (stands_receive? hreceive)

theorem takes_receive (feed : Feed) (limit : Nat) (s : Subscriber) :
    Takes feed limit s (Subscriber.receive feed limit s) := by
  induction limit generalizing s with
  | zero =>
      rw [receive_zero]
      exact .full s
  | succ limit ih =>
      cases hreceive : feed.receive? s.cursor with
      | none =>
          rw [receive_of_none hreceive]
          exact .nothing hreceive
      | some found =>
          rw [receive_of_some hreceive]
          exact .delivery hreceive (ih _)

theorem Accounts.takes {limit : Nat} {s' : Subscriber} (h : Accounts feed start s)
    (htakes : Takes feed limit s s') : Accounts feed start s' := by
  induction htakes with
  | full s | nothing _ =>
      exact h
  | delivery hsome _ ih =>
      exact ih (h.deliver hsome)

theorem Accounts.publish (h : Accounts feed start s) (topic : String) (event : FleetEvent)
    (now : Time.Instant) : Accounts (feed.publish topic event now) start s where
  start_le := h.start_le
  next_le := by
    rw [size_publish]
    exact Nat.le_succ_of_le h.next_le
  heard := by
    refine h.heard.imp fun o number hstands e he => ?_
    rcases hstands e he with ⟨k, hnumber, hk⟩
    exact ⟨k, hnumber, getElem?_publish hk topic event now⟩

theorem accounts_subscribe (feed : Feed) :
    Accounts feed feed.published.size ⟨feed.subscribe, []⟩ where
  start_le := Nat.le_refl _
  next_le := Nat.le_refl _
  heard := by
    rw [subscribe, Nat.sub_self]
    exact .nil

/-!
# All subscribers
-/

def publications (moves : List Move) : Nat :=
  moves.countP Move.isPublish

namespace Audience

theorem run_append (before after : List Move) : run (before ++ after) = after.foldl step (run before) :=
  List.foldl_append

theorem size_step (a : Audience) (m : Move) :
    (a.step m).feed.published.size = a.feed.published.size + publications [m] := by
  cases m with
  | publish topic event now =>
      exact size_publish a.feed topic event now
  | subscribe =>
      rfl
  | receive subscriber limit =>
      rfl

theorem size_run (moves : List Move) :
    (run moves).feed.published.size = publications moves := by
  induction moves using List.reverseRecOn with
  | nil =>
      rfl
  | append_singleton moves m ih =>
      rw [run_append, List.foldl_cons, List.foldl_nil, size_step, ih, publications, publications,
        publications, List.countP_append]

theorem numbered_run (moves : List Move) : Numbered (run moves).feed := by
  induction moves using List.reverseRecOn with
  | nil =>
      intro k e he
      simp [run, empty] at he
  | append_singleton moves m ih =>
      rw [run_append, List.foldl_cons, List.foldl_nil]
      cases m with
      | publish topic event now =>
          exact numbered_publish ih topic event now
      | subscribe =>
          exact ih
      | receive subscriber limit =>
          exact ih

theorem accounts_step {a : Audience} {i : Nat} (hs : a.subscribers[i]? = some s)
    (h : Accounts a.feed start s) (m : Move) :
    ∃ s', (a.step m).subscribers[i]? = some s' ∧ Accounts (a.step m).feed start s' := by
  cases m with
  | publish topic event now =>
      exact ⟨s, hs, h.publish topic event now⟩
  | subscribe =>
      have hi : i < a.subscribers.length := (List.getElem?_eq_some_iff.mp hs).choose
      refine ⟨s, ?_, h⟩
      rw [step, List.getElem?_append_left hi]
      exact hs
  | receive subscriber limit =>
      by_cases hsame : subscriber = i
      · refine ⟨s.receive a.feed limit, ?_, h.takes (takes_receive a.feed limit s)⟩
        rw [step, hsame, List.getElem?_modify_eq, hs]
        rfl
      · refine ⟨s, ?_, h⟩
        simpa [step, List.getElem?_modify_ne, hsame] using hs

theorem accounts_foldl {a : Audience} {i : Nat} (hs : a.subscribers[i]? = some s)
    (h : Accounts a.feed start s) (moves : List Move) :
    ∃ s', (moves.foldl step a).subscribers[i]? = some s' ∧
      Accounts (moves.foldl step a).feed start s' := by
  induction moves generalizing a s with
  | nil =>
      exact ⟨s, hs, h⟩
  | cons m rest ih =>
      rcases accounts_step hs h m with ⟨s', hs', h'⟩
      exact ih hs' h'

end Audience

/-- Every subscriber can account for every event, from the first one after its subscription up to the place
it has reached.  What is offered to it next is settled by that place alone, and when it receives it takes
what is offered to it. -/
theorem subscribers_account_for_every_event (before after : List Move) :
    let moves := before ++ .subscribe :: after
    let a := Audience.run moves
    a.feed.published.size = publications moves ∧
      (∀ k e, a.feed.published[k]? = some e → e.id.value.toNat = (k + 1) % UInt64.size) ∧
      ∃ s, a.subscribers[(Audience.run before).subscribers.length]? = some s ∧
        publications before ≤ s.cursor.next ∧ s.cursor.next ≤ publications moves ∧
        List.Forall₂
          (fun o number => ∀ e ∈ o, e.id.value.toNat = number % UInt64.size ∧
            ∃ k, number = k + 1 ∧ a.feed.published[k]? = some e)
          (s.heard.flatMap Delivery.events)
          (List.range' (publications before + 1) (s.cursor.next - publications before)) ∧
        (a.feed.receive? s.cursor =
          if s.cursor.next + 1024 < publications moves then
            some (.lagged (publications moves - 1024 - s.cursor.next), ⟨publications moves - 1024⟩)
          else a.feed.published[s.cursor.next]?.map fun e => (.event e, ⟨s.cursor.next + 1⟩)) ∧
        ∀ limit, ∃ s',
          (Audience.run (moves ++
              [.receive (Audience.run before).subscribers.length limit])).subscribers[
            (Audience.run before).subscribers.length]? = some s' ∧
          Takes a.feed limit s s' := by
  intro moves a
  have hsize : a.feed.published.size = publications moves := Audience.size_run moves
  have hnumbered : Numbered a.feed := Audience.numbered_run moves
  have hnew : ((Audience.run before).step .subscribe).subscribers[(Audience.run before).subscribers.length]? =
      some ⟨(Audience.run before).feed.subscribe, []⟩ := by
    rw [Audience.step, List.getElem?_concat_length]
  have hbefore := accounts_subscribe (Audience.run before).feed
  rw [Audience.size_run] at hbefore
  rcases Audience.accounts_foldl hnew hbefore after with ⟨s, hs, h⟩
  have ha : a = after.foldl Audience.step ((Audience.run before).step .subscribe) :=
    Audience.run_append before (.subscribe :: after)
  rw [← ha] at hs h
  refine ⟨hsize, hnumbered, s, hs, h.start_le, hsize ▸ h.next_le, ?_, ?_, ?_⟩
  · refine h.heard.imp fun o number hstands e he => ?_
    rcases hstands e he with ⟨k, rfl, hk⟩
    exact ⟨hnumbered k e hk, k, rfl, hk⟩
  · rw [receive?_eq, hsize, feedCapacity]
  · intro limit
    refine ⟨s.receive a.feed limit, ?_, takes_receive a.feed limit s⟩
    rw [Audience.run_append, List.foldl_cons, List.foldl_nil, Audience.step, List.getElem?_modify_eq, hs]
    rfl

end Feed
end ServerFleet
