import Mathlib

/-!
# A bounded first-in-first-out log

What a bounded inbound queue is for, over any type of messages with a weight `w`. A `Log w limit`
holds the messages `taken` by readers and the messages `held` for them, oldest first, and carries
the proof that the held weight is at most `limit`. An `offer` that would exceed the limit is refused
and shuts the log for good; `take` moves the oldest held message to the taken ones; `close` shuts
the log from outside. The results are about runs of operations (`Log.applyAll`): what was accepted
never shrinks or reorders, and nothing is accepted once the log is shut.
-/

namespace BoundedLog

variable {α : Type*}

/-- The total weight of a list of messages. -/
def load (w : α → Nat) (l : List α) : Nat := (l.map w).sum

@[simp] theorem load_nil (w : α → Nat) : load w [] = 0 := rfl

@[simp] theorem load_cons (w : α → Nat) (m : α) (l : List α) :
    load w (m :: l) = w m + load w l := by
  simp [load]

@[simp] theorem load_append (w : α → Nat) (l l' : List α) :
    load w (l ++ l') = load w l + load w l' := by
  simp [load]

/-- A bounded log: the messages taken, the messages still held, whether it is shut, and the proof
that what it holds is within the limit. -/
structure Log (w : α → Nat) (limit : Nat) where
  taken : List α
  held : List α
  shut : Bool
  bound : load w held ≤ limit

/-- The operations on a bounded log. -/
inductive Op (α : Type*) where
  | offer (m : α)
  | take
  | close

namespace Log

variable {w : α → Nat} {limit : Nat}

/-- The empty log. -/
def empty : Log w limit := ⟨[], [], false, Nat.zero_le _⟩

/-- Every message the log ever accepted, oldest first. -/
def accepted (q : Log w limit) : List α := q.taken ++ q.held

/-- The log accepts `m`: it is not shut and `m` fits next to what it holds. -/
def Admits (q : Log w limit) (m : α) : Prop :=
  q.shut = false ∧ load w q.held + w m ≤ limit

instance (q : Log w limit) (m : α) : Decidable (q.Admits m) :=
  inferInstanceAs (Decidable (_ ∧ _))

/-- Accept `m` when it is admitted; shut the log when it is not. -/
def offer (q : Log w limit) (m : α) : Log w limit :=
  if h : q.Admits m then
    { q with held := q.held ++ [m], bound := by simpa using h.2 }
  else { q with shut := true }

/-- Take the oldest held message, if there is one. -/
def take (q : Log w limit) : Log w limit :=
  match h : q.held with
  | [] => q
  | m :: rest =>
    { q with
      taken := q.taken ++ [m]
      held := rest
      bound := by have := q.bound; rw [h, load_cons] at this; omega }

/-- Shut the log. -/
def close (q : Log w limit) : Log w limit := { q with shut := true }

/-- One operation. -/
def apply (q : Log w limit) : Op α → Log w limit
  | .offer m => q.offer m
  | .take => q.take
  | .close => q.close

/-- A run of operations. -/
def applyAll (q : Log w limit) (ops : List (Op α)) : Log w limit := ops.foldl apply q

section
variable {q : Log w limit} {m : α}

theorem ext {p q : Log w limit} (ht : p.taken = q.taken) (hh : p.held = q.held)
    (hs : p.shut = q.shut) : p = q := by
  cases p; cases q; simp_all

/-! ## One operation -/

theorem offer_of_admits (h : q.Admits m) :
    (q.offer m).taken = q.taken ∧ (q.offer m).held = q.held ++ [m] ∧ (q.offer m).shut = false := by
  rw [offer, dif_pos h]
  exact ⟨rfl, rfl, h.1⟩

theorem offer_of_not_admits (h : ¬ q.Admits m) : q.offer m = q.close := by
  rw [offer, dif_neg h]
  rfl

/-- A shut log admits nothing. -/
theorem not_admits_of_shut (h : q.shut = true) : ¬ q.Admits m := by
  rintro ⟨hs, -⟩
  rw [h] at hs
  cases hs

/-- A shut log is left as it is by an offer. -/
theorem offer_of_shut (h : q.shut = true) : q.offer m = q := by
  rw [offer_of_not_admits (not_admits_of_shut h)]
  exact ext rfl rfl h.symm

theorem take_nil (h : q.held = []) : q.take = q := by
  unfold take
  split
  · rfl
  · next h' => rw [h] at h'; cases h'

theorem take_cons {rest : List α} (h : q.held = m :: rest) :
    q.take.taken = q.taken ++ [m] ∧ q.take.held = rest ∧ q.take.shut = q.shut := by
  unfold take
  split
  · next h' => rw [h] at h'; cases h'
  · next h' =>
    rw [h] at h'
    cases h'
    exact ⟨rfl, rfl, rfl⟩

/-- Taking moves a message and neither loses nor reorders one. -/
theorem accepted_take : q.take.accepted = q.accepted := by
  cases h : q.held with
  | nil => rw [take_nil h]
  | cons m rest =>
    obtain ⟨ht, hh, -⟩ := take_cons h
    rw [accepted, accepted, ht, hh, h]
    simp

@[simp] theorem accepted_close : q.close.accepted = q.accepted := rfl

theorem accepted_offer_of_admits (h : q.Admits m) : (q.offer m).accepted = q.accepted ++ [m] := by
  obtain ⟨ht, hh, -⟩ := offer_of_admits h
  rw [accepted, accepted, ht, hh, List.append_assoc]

/-- An operation on a shut log accepts nothing and leaves it shut. -/
theorem apply_of_shut (h : q.shut = true) (op : Op α) :
    (q.apply op).shut = true ∧ (q.apply op).accepted = q.accepted := by
  cases op with
  | offer m =>
    rw [apply, offer_of_not_admits (not_admits_of_shut h)]
    exact ⟨rfl, rfl⟩
  | take =>
    refine ⟨?_, accepted_take⟩
    rw [apply]
    cases hh : q.held with
    | nil => rw [take_nil hh, h]
    | cons m rest => rw [(take_cons hh).2.2, h]
  | close => exact ⟨rfl, rfl⟩

/-- An operation only adds to what was accepted, and only at its end. -/
theorem accepted_prefix_apply (op : Op α) : q.accepted <+: (q.apply op).accepted := by
  cases op with
  | offer m =>
    by_cases h : q.Admits m
    · rw [apply, accepted_offer_of_admits h]
      exact List.prefix_append _ _
    · rw [apply, offer_of_not_admits h]
      exact List.prefix_rfl
  | take => exact accepted_take.symm ▸ List.prefix_rfl
  | close => exact List.prefix_rfl

/-! ## Runs -/

@[simp] theorem applyAll_nil : q.applyAll [] = q := rfl

@[simp] theorem applyAll_cons (op : Op α) (ops : List (Op α)) :
    q.applyAll (op :: ops) = (q.apply op).applyAll ops := rfl

/-- Nothing is accepted after the log is shut, however much readers take. -/
theorem applyAll_of_shut (h : q.shut = true) (ops : List (Op α)) :
    (q.applyAll ops).shut = true ∧ (q.applyAll ops).accepted = q.accepted := by
  induction ops generalizing q with
  | nil => exact ⟨h, rfl⟩
  | cons op ops ih =>
    obtain ⟨hs, ha⟩ := apply_of_shut h op
    rw [applyAll_cons, (ih hs).2, ha]
    exact ⟨(ih hs).1, rfl⟩

/-- Offers to a shut log leave it as it is. -/
theorem applyAll_offers_of_shut (h : q.shut = true) (ms : List α) :
    q.applyAll (ms.map .offer) = q := by
  induction ms with
  | nil => rfl
  | cons m ms ih => rw [List.map_cons, applyAll_cons, apply, offer_of_shut h, ih]

/-- Offers take nothing. -/
theorem taken_applyAll_offers (ms : List α) : (q.applyAll (ms.map .offer)).taken = q.taken := by
  induction ms generalizing q with
  | nil => rfl
  | cons m ms ih =>
    rw [List.map_cons, applyAll_cons, apply, ih]
    by_cases h : q.Admits m
    · exact (offer_of_admits h).1
    · rw [offer_of_not_admits h]
      rfl

theorem accepted_prefix_applyAll (ops : List (Op α)) :
    q.accepted <+: (q.applyAll ops).accepted := by
  induction ops generalizing q with
  | nil => exact List.prefix_rfl
  | cons op ops ih => exact (accepted_prefix_apply op).trans ih

end

end Log

end BoundedLog
