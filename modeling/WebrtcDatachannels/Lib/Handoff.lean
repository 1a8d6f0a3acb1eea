import Mathlib.Data.List.Basic
import Mathlib.Data.List.Pairwise
import Mathlib.Tactic.Common

/-!
# A queue that hands its items to waiting requests

What a queue with pending receivers is for, over any type of items. A request for the next item gets
a number when it is `issued`. `offer` gives an item to the oldest request that waits, or holds it;
`ask` issues a request, which gets the oldest held item or waits; `refuse` issues one that gets
nothing; `dismiss` lets the waiting ones go with nothing. A `Queue` carries the proofs that it never
holds an item while a request waits and that items go to requests in order, each request getting at
most one (`ordered`). The results are that what was accepted is what was given and what is held, and
that nothing is given twice or taken back.
-/

namespace Handoff

variable {α : Type*}

/-- The items held, the requests that wait, the items given with the request that got each, all
oldest first, and the number of requests issued. -/
structure Queue (α : Type*) where
  held : List α
  waiting : List Nat
  given : List (Nat × α)
  issued : Nat
  excl : held = [] ∨ waiting = []
  ordered : (given.map Prod.fst ++ waiting).Pairwise (· < ·)
  fresh : ∀ n ∈ given.map Prod.fst ++ waiting, n < issued

namespace Queue

/-- The empty queue. -/
def empty : Queue α := ⟨[], [], [], 0, .inl rfl, .nil, nofun⟩

/-- Every item the queue ever accepted, oldest first. -/
def accepted (q : Queue α) : List α := q.given.map Prod.snd ++ q.held

/-- The items held are empty when a request waits. -/
theorem held_of_waiting {q : Queue α} {n : Nat} {ns : List Nat} (h : q.waiting = n :: ns) :
    q.held = [] := by
  rcases q.excl with he | he
  · exact he
  · rw [he] at h; cases h

/-- No request waits when an item is held. -/
theorem waiting_of_held {q : Queue α} {x : α} {xs : List α} (h : q.held = x :: xs) :
    q.waiting = [] := by
  rcases q.excl with he | he
  · rw [he] at h; cases h
  · exact he

/-- Accept an item. -/
def offer (q : Queue α) (x : α) : Queue α :=
  match h : q.waiting with
  | [] => { q with held := q.held ++ [x], excl := .inr h }
  | n :: ns =>
    { q with
      waiting := ns
      given := q.given ++ [(n, x)]
      excl := .inl (held_of_waiting h)
      ordered := by have := q.ordered; rw [h] at this; simpa using this
      fresh := by have := q.fresh; rw [h] at this; simpa using this }

/-- Issue a request for an item. -/
def ask (q : Queue α) : Queue α :=
  match h : q.held with
  | [] =>
    { q with
      waiting := q.waiting ++ [q.issued]
      issued := q.issued + 1
      excl := .inl h
      ordered := by
        rw [← List.append_assoc]
        exact List.pairwise_append.2 ⟨q.ordered, List.pairwise_singleton _ _, fun n hn m hm =>
          List.mem_singleton.1 hm ▸ q.fresh n hn⟩
      fresh := by
        intro n hn
        rw [← List.append_assoc] at hn
        rcases List.mem_append.1 hn with hn | hn
        · exact Nat.lt_succ_of_lt (q.fresh n hn)
        · rw [List.mem_singleton.1 hn]; exact Nat.lt_succ_self _ }
  | x :: xs =>
    { q with
      held := xs
      given := q.given ++ [(q.issued, x)]
      issued := q.issued + 1
      excl := .inr (waiting_of_held h)
      ordered := by
        have hord := q.ordered
        rw [waiting_of_held h, List.append_nil] at hord ⊢
        rw [List.map_append]
        exact List.pairwise_append.2 ⟨hord, List.pairwise_singleton _ _, fun n hn m hm =>
          List.mem_singleton.1 hm ▸ q.fresh n (List.mem_append_left _ hn)⟩
      fresh := by
        intro n hn
        rw [waiting_of_held h, List.append_nil, List.map_append] at hn
        rcases List.mem_append.1 hn with hn | hn
        · exact Nat.lt_succ_of_lt (q.fresh n (List.mem_append_left _ hn))
        · rw [List.mem_singleton.1 hn]; exact Nat.lt_succ_self _ }

/-- Issue a request that gets nothing. -/
def refuse (q : Queue α) : Queue α :=
  { q with issued := q.issued + 1, fresh := fun n hn => Nat.lt_succ_of_lt (q.fresh n hn) }

/-- Let the waiting requests go. -/
def dismiss (q : Queue α) : Queue α :=
  { q with
    waiting := []
    excl := .inr rfl
    ordered := by
      rw [List.append_nil]
      exact (List.pairwise_append.1 q.ordered).1
    fresh := fun n hn => q.fresh n (List.mem_append_left _ (by simpa using hn)) }

section
variable {q : Queue α} {x : α}

/-! ## One operation -/

theorem offer_of_idle (h : q.waiting = []) :
    (q.offer x).held = q.held ++ [x] ∧ (q.offer x).waiting = [] ∧
      (q.offer x).given = q.given ∧ (q.offer x).issued = q.issued := by
  unfold offer
  split
  · exact ⟨rfl, h, rfl, rfl⟩
  · next h' => rw [h] at h'; cases h'

theorem offer_of_waiting {n : Nat} {ns : List Nat} (h : q.waiting = n :: ns) :
    (q.offer x).held = [] ∧ (q.offer x).waiting = ns ∧
      (q.offer x).given = q.given ++ [(n, x)] ∧ (q.offer x).issued = q.issued := by
  unfold offer
  split
  · next h' => rw [h] at h'; cases h'
  · next h' =>
    rw [h] at h'
    cases h'
    exact ⟨show q.held = [] from held_of_waiting h, rfl, rfl, rfl⟩

theorem ask_of_none (h : q.held = []) :
    q.ask.held = [] ∧ q.ask.waiting = q.waiting ++ [q.issued] ∧ q.ask.given = q.given ∧
      q.ask.issued = q.issued + 1 := by
  unfold ask
  split
  · exact ⟨h, rfl, rfl, rfl⟩
  · next h' => rw [h] at h'; cases h'

theorem ask_of_held {xs : List α} (h : q.held = x :: xs) :
    q.ask.held = xs ∧ q.ask.waiting = [] ∧ q.ask.given = q.given ++ [(q.issued, x)] ∧
      q.ask.issued = q.issued + 1 := by
  unfold ask
  split
  · next h' => rw [h] at h'; cases h'
  · next h' =>
    rw [h] at h'
    cases h'
    exact ⟨rfl, show q.waiting = [] from waiting_of_held h, rfl, rfl⟩

/-- An offer accepts its item, after those accepted before. -/
theorem accepted_offer : (q.offer x).accepted = q.accepted ++ [x] := by
  cases h : q.waiting with
  | nil =>
    obtain ⟨hh, -, hg, -⟩ := offer_of_idle (x := x) h
    rw [accepted, accepted, hh, hg, List.append_assoc]
  | cons n ns =>
    obtain ⟨hh, -, hg, -⟩ := offer_of_waiting (x := x) h
    rw [accepted, accepted, hh, hg, held_of_waiting h]
    simp

/-- A request moves an item and neither loses nor reorders one. -/
theorem accepted_ask : q.ask.accepted = q.accepted := by
  cases h : q.held with
  | nil =>
    obtain ⟨hh, -, hg, -⟩ := ask_of_none h
    rw [accepted, accepted, hh, hg, h]
  | cons x xs =>
    obtain ⟨hh, -, hg, -⟩ := ask_of_held h
    rw [accepted, accepted, hh, hg, h]
    simp

/-- No request is given two items. -/
theorem given_ordered (q : Queue α) : (q.given.map Prod.fst).Pairwise (· < ·) :=
  (List.pairwise_append.1 q.ordered).1

end

end Queue

end Handoff
