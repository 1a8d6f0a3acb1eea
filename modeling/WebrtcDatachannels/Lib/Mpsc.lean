import Mathlib.Data.List.Basic
import Mathlib.Tactic.Common

/-!
# Channels whose senders go away

An unbounded multi-producer channel, over any type of items: the items sent and not yet received,
oldest first, and the number of senders. A receive takes the oldest item; on an empty channel it
reports the end when no sender is left, and waits otherwise. Nothing but the number of senders
decides how a run of receives goes on past the queued items (`polls_eq`).
-/

namespace Mpsc

variable {α : Type*}

/-- A channel with its senders. -/
structure Chan (α : Type*) where
  queue : List α
  senders : Nat
deriving DecidableEq

/-- What a receive tells: nothing yet, the end, or an item. -/
inductive Poll (α : Type*) where
  | pending
  | ended
  | item (x : α)
deriving DecidableEq

/-- What a receive tells of the images of the items. -/
def Poll.map {β : Type*} (f : α → β) : Poll α → Poll β
  | .pending => .pending
  | .ended => .ended
  | .item x => .item (f x)

namespace Chan

/-- An empty channel. -/
def new (senders : Nat) : Chan α := { queue := [], senders }

/-- An item is sent. -/
def send (c : Chan α) (x : α) : Chan α := { c with queue := c.queue ++ [x] }

/-- A sender is cloned. -/
def clone (c : Chan α) : Chan α := { c with senders := c.senders + 1 }

/-- A sender is dropped. -/
def drop (c : Chan α) : Chan α := { c with senders := c.senders - 1 }

/-- A receive. -/
def poll (c : Chan α) : Poll α × Chan α :=
  match c.queue with
  | x :: queue => (.item x, { c with queue })
  | [] => if c.senders = 0 then (.ended, c) else (.pending, c)

/-- What the next `n` receives tell when nobody sends in between. -/
def polls : Nat → Chan α → List (Poll α)
  | 0, _ => []
  | n + 1, c => c.poll.1 :: polls n c.poll.2

/-- The channel of the images of the items. -/
def map {β : Type*} (f : α → β) (c : Chan α) : Chan β :=
  { queue := c.queue.map f, senders := c.senders }

/-- A receive of the images is the image of a receive. -/
theorem map_poll {β : Type*} (f : α → β) (c : Chan α) :
    (c.map f).poll = (c.poll.1.map f, c.poll.2.map f) := by
  obtain ⟨queue, senders⟩ := c
  cases queue with
  | nil => by_cases hs : senders = 0 <;> simp [map, poll, hs, Poll.map]
  | cons x queue => rfl

@[simp] theorem drop_senders (c : Chan α) : c.drop.senders = c.senders - 1 := rfl

/-- A receive changes no sender. -/
@[simp] theorem poll_senders (c : Chan α) : c.poll.2.senders = c.senders := by
  unfold poll
  split
  · rfl
  · split <;> rfl

/-- An empty channel answers every receive alike. -/
theorem poll_of_nil {c : Chan α} (h : c.queue = []) :
    c.poll = (if c.senders = 0 then .ended else .pending, c) := by
  by_cases hs : c.senders = 0 <;> simp [poll, h, hs]

/-- The end is reported on an empty channel without senders. -/
theorem poll_ended {c : Chan α} (h : c.poll.1 = .ended) : c.queue = [] ∧ c.senders = 0 := by
  unfold poll at h
  split at h
  · cases h
  · next hq =>
    split at h
    · next hs => exact ⟨hq, hs⟩
    · cases h

/-- A run of receives yields the queued items, and then the end or nothing. -/
theorem polls_eq (c : Chan α) (n : Nat) :
    polls (c.queue.length + n) c =
      c.queue.map .item ++ List.replicate n (if c.senders = 0 then .ended else .pending) := by
  obtain ⟨queue, senders⟩ := c
  induction queue with
  | nil =>
    show polls (0 + n) _ = List.replicate n _
    rw [Nat.zero_add]
    induction n with
    | zero => rfl
    | succ n ih => rw [polls, poll_of_nil rfl, ih]; rfl
  | cons x queue ih =>
    show polls (queue.length + 1 + n) _ = _
    rw [Nat.add_right_comm, polls]
    exact congrArg (.item x :: ·) ih

end Chan

end Mpsc
