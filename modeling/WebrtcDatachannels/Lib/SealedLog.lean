import Mathlib.Data.List.Basic
import Mathlib.Data.List.Induction
import Mathlib.Tactic.Common

/-!
# An append-only log that can be finished

What a log is for whose readers ask for an entry by its number, over any type of entries. An
`append` gets the number of its entry, until the log is finished; `finish` answers the length; a
`read` answers the entry, or that it will never come, or that it may still come. `room` says for
which lengths the log still takes an entry. A client sees a history of operations with their
replies, and `ofHistory` is the log that a history stands for. The results are about a history in
which every reply is the one of the log that the events before it stand for (`Explained`): the
numbers are consecutive, and an entry that was read reads the same for good.
-/

namespace SealedLog

variable {α : Type*}

/-- The entries of a log, oldest first, and whether it is finished. -/
structure Log (α : Type*) where
  entries : List α
  shut : Bool

/-- The operations on a log. -/
inductive Op (α : Type*) where
  | append (x : α)
  | finish
  | read (n : Nat)

/-- What an operation answers: the number of the appended entry, that there is no room for it, or
that the log is finished; the length; the entry, that it will never come, or that it may still
come. -/
inductive Reply (α : Type*) where
  | appended (n : Nat)
  | full
  | refused
  | length (n : Nat)
  | item (x : α)
  | over
  | pending

/-- An operation with its reply. -/
abbrev Event (α : Type*) := Op α × Reply α

namespace Log

/-- The reply to a read. -/
def look (q : Log α) (n : Nat) : Reply α :=
  match q.entries[n]? with
  | some x => .item x
  | none => if q.shut then .over else .pending

/-- One operation. -/
def apply (room : Nat → Bool) (q : Log α) : Op α → Reply α × Log α
  | .append x =>
    if q.shut then (.refused, q)
    else if room q.entries.length then
      (.appended q.entries.length, { q with entries := q.entries ++ [x] })
    else (.full, q)
  | .finish => (.length q.entries.length, { q with shut := true })
  | .read n => (q.look n, q)

end Log

theorem Log.look_of_some {q : Log α} {n : Nat} {x : α} (h : q.entries[n]? = some x) :
    q.look n = .item x := by
  simp [look, h]

/-! ## Histories -/

/-- The entry that an event appended. -/
def Event.accepted? : Event α → Option α
  | (.append x, .appended _) => some x
  | _ => none

/-- The number that an event gave out. -/
def Event.number? : Event α → Option Nat
  | (.append _, .appended n) => some n
  | _ => none

/-- The event finished the log. -/
def Event.finishes : Event α → Bool
  | (.finish, _) => true
  | _ => false

/-- The entries appended in a history, oldest first. -/
def accepted (h : List (Event α)) : List α := h.filterMap Event.accepted?

/-- The numbers given out in a history, oldest first. -/
def numbers (h : List (Event α)) : List Nat := h.filterMap Event.number?

/-- The log was finished in a history. -/
def marked (h : List (Event α)) : Bool := h.any Event.finishes

/-- The log that a history stands for. -/
def ofHistory (h : List (Event α)) : Log α := ⟨accepted h, marked h⟩

/-- Every reply of the history is that of the log which the events before it stand for. -/
def Explained (room : Nat → Bool) (h : List (Event α)) : Prop :=
  ∀ pre e post, h = pre ++ e :: post → e.2 = ((ofHistory pre).apply room e.1).1

section
variable {room : Nat → Bool} {h : List (Event α)} {e : Event α}

@[simp] theorem accepted_append (h h' : List (Event α)) :
    accepted (h ++ h') = accepted h ++ accepted h' := by
  simp [accepted]

@[simp] theorem marked_append (h h' : List (Event α)) :
    marked (h ++ h') = (marked h || marked h') := by
  simp [marked]

/-- The three outcomes of an append. -/
theorem Log.append_cases (room : Nat → Bool) (q : Log α) (x : α) :
    (q.shut = true ∧ q.apply room (.append x) = (.refused, q)) ∨
    (q.shut = false ∧ q.apply room (.append x) =
      (.appended q.entries.length, { q with entries := q.entries ++ [x] })) ∨
    (q.shut = false ∧ q.apply room (.append x) = (.full, q)) := by
  cases hs : q.shut with
  | true => exact .inl ⟨rfl, by simp [Log.apply, hs]⟩
  | false =>
    cases hr : room q.entries.length with
    | true => exact .inr (.inl ⟨rfl, by simp [Log.apply, hs, hr]⟩)
    | false => exact .inr (.inr ⟨rfl, by simp [Log.apply, hs, hr]⟩)

/-- The log after one more event. -/
theorem ofHistory_concat (h : List (Event α)) (e : Event α) :
    ofHistory (h ++ [e]) =
      ⟨accepted h ++ (Event.accepted? e).toList, marked h || Event.finishes e⟩ := by
  cases hx : Event.accepted? e <;> simp [ofHistory, accepted, marked, hx]

/-- One more event that is explained changes the log as its operation does. -/
theorem ofHistory_snoc (he : e.2 = ((ofHistory h).apply room e.1).1) :
    ofHistory (h ++ [e]) = ((ofHistory h).apply room e.1).2 := by
  rw [ofHistory_concat]
  obtain ⟨op, reply⟩ := e
  cases op with
  | append x =>
    rcases Log.append_cases room (ofHistory h) x with ⟨-, ha⟩ | ⟨-, ha⟩ | ⟨-, ha⟩
    all_goals
      rw [ha] at he ⊢
      cases he
      simp [ofHistory, Event.accepted?, Event.finishes]
  | finish => simp [ofHistory, Log.apply, Event.accepted?, Event.finishes]
  | read n => simp [ofHistory, Log.apply, Event.accepted?, Event.finishes]

theorem explained_nil : Explained room ([] : List (Event α)) := by
  intro pre e post he
  simp at he

/-- A history is explained event by event. -/
theorem Explained.snoc (hh : Explained room h) (he : e.2 = ((ofHistory h).apply room e.1).1) :
    Explained room (h ++ [e]) := by
  intro pre e' post hsplit
  rcases List.eq_nil_or_concat post with rfl | ⟨post, x, rfl⟩
  · obtain ⟨rfl, hee⟩ := List.append_inj' hsplit rfl
    obtain rfl := (List.cons.inj hee).1
    exact he
  · rw [List.concat_eq_append, ← List.cons_append, ← List.append_assoc] at hsplit
    obtain ⟨hpre, -⟩ := List.append_inj' hsplit rfl
    exact hh pre e' post hpre

theorem Explained.left {h' : List (Event α)} (hh : Explained room (h ++ h')) :
    Explained room h := by
  rintro pre e post rfl
  exact hh pre e (post ++ h') (by simp)

/-- An append that was accepted got the length before it as its number. -/
theorem Explained.number {post pre : List (Event α)} {x : α} {n : Nat} (hh : Explained room h)
    (hs : h = pre ++ (.append x, .appended n) :: post) : n = (accepted pre).length := by
  have he := hh pre _ post hs
  rcases Log.append_cases room (ofHistory pre) x with ⟨-, ha⟩ | ⟨-, ha⟩ | ⟨-, ha⟩
  · rw [ha] at he; cases he
  · rw [ha] at he; cases he; rfl
  · rw [ha] at he; cases he

/-- The numbers given out are consecutive, from zero. -/
theorem Explained.numbers (hh : Explained room h) :
    numbers h = List.range (accepted h).length := by
  induction h using List.reverseRecOn with
  | nil => rfl
  | append_singleton h e ih =>
    have hn := ih hh.left
    rw [accepted_append, SealedLog.numbers, List.filterMap_append]
    rw [SealedLog.numbers] at hn
    rw [hn]
    -- an event that gives out no number appends nothing
    have hnone : List.range (accepted h).length ++ [] = List.range (accepted h ++ []).length := by
      rw [List.append_nil, List.append_nil]
    obtain ⟨op, reply⟩ := e
    cases op with
    | append x =>
      cases reply with
      | appended n =>
        obtain rfl := hh.number rfl
        show List.range (accepted h).length ++ [(accepted h).length] =
          List.range (accepted h ++ [x]).length
        rw [List.length_append, List.length_singleton, List.range_succ]
      | _ => exact hnone
    | finish => exact hnone
    | read n => exact hnone

/-- A read answers the entry with its number if there is one, else that it will never come if the
log is sealed, else that it may still come. -/
theorem Explained.read {pre post : List (Event α)} {n : Nat} {reply : Reply α}
    (hh : Explained room h) (hs : h = pre ++ (.read n, reply) :: post) :
    reply = (ofHistory pre).look n :=
  hh pre (.read n, reply) post hs

/-- The entry with a number is the one whose append got it. -/
theorem Explained.mem_of_accepted {n : Nat} {x : α} (hh : Explained room h)
    (hx : (accepted h)[n]? = some x) : (.append x, .appended n) ∈ h := by
  induction h using List.reverseRecOn with
  | nil => simp [accepted] at hx
  | append_singleton h e ih =>
    rw [accepted_append, List.getElem?_append] at hx
    split at hx
    · exact List.mem_append_left _ (ih hh.left hx)
    · next hge =>
      obtain ⟨op, reply⟩ := e
      cases op with
      | append y =>
        cases reply with
        | appended k =>
          obtain rfl := hh.number rfl
          have hx : [y][n - (accepted h).length]? = some x := hx
          rw [List.getElem?_singleton] at hx
          split at hx
          · next hz =>
            cases hx
            have hn : n = (accepted h).length := by omega
            rw [hn]
            simp
          · cases hx
        | _ => cases hx
      | finish => cases hx
      | read k => cases hx

/-- An entry that was read reads the same in every later read, and it is the one whose append got
its number. -/
theorem Explained.read_again {pre mid post : List (Event α)} {n : Nat} {x : α} {reply : Reply α}
    (hh : Explained room h)
    (hs : h = pre ++ (.read n, .item x) :: (mid ++ (.read n, reply) :: post)) :
    reply = .item x ∧ (.append x, .appended n) ∈ pre := by
  have hfirst := hh.read hs
  have hpre : (accepted pre)[n]? = some x := by
    unfold Log.look at hfirst
    split at hfirst
    · next y hy => cases hfirst; exact hy
    · split at hfirst <;> cases hfirst
  refine ⟨?_, ?_⟩
  · have hs' : h = (pre ++ (.read n, .item x) :: mid) ++ (.read n, reply) :: post := by
      rw [hs]; simp
    have hsecond := hh.read hs'
    have hlater : (accepted (pre ++ (.read n, .item x) :: mid))[n]? = some x := by
      rw [accepted_append, List.getElem?_append_left (List.getElem?_eq_some_iff.1 hpre).1, hpre]
    exact hsecond.trans (Log.look_of_some hlater)
  · rw [hs] at hh
    exact hh.left.mem_of_accepted hpre

/-- Nothing is appended after the log is finished. -/
theorem Explained.accepted_of_marked {h' : List (Event α)} (hh : Explained room (h ++ h'))
    (hm : marked h = true) : accepted (h ++ h') = accepted h := by
  induction h' using List.reverseRecOn with
  | nil => rw [List.append_nil]
  | append_singleton h' e ih =>
    rw [← List.append_assoc] at hh ⊢
    have he := hh (h ++ h') e [] rfl
    have hshut : (ofHistory (h ++ h')).shut = true := by
      show marked (h ++ h') = true
      rw [marked_append, hm, Bool.true_or]
    rw [accepted_append, ih hh.left]
    obtain ⟨op, reply⟩ := e
    cases op with
    | append x =>
      rcases Log.append_cases room (ofHistory (h ++ h')) x with ⟨-, ha⟩ | ⟨hno, -⟩ | ⟨hno, -⟩
      · rw [ha] at he
        cases he
        simp [accepted, Event.accepted?]
      · rw [hshut] at hno; cases hno
      · rw [hshut] at hno; cases hno
    | finish => simp [accepted, Event.accepted?]
    | read n => simp [accepted, Event.accepted?]

/-- Finishing again answers the same length. -/
theorem Explained.length_again {pre mid post : List (Event α)} {n n' : Nat}
    (hh : Explained room h)
    (hs : h = pre ++ (.finish, .length n) :: (mid ++ (.finish, .length n') :: post)) : n' = n := by
  have hfirst := hh pre _ _ hs
  have hs' : h = ((pre ++ [(.finish, .length n)]) ++ mid) ++ (.finish, .length n') :: post := by
    rw [hs]; simp
  have hsecond := hh _ _ _ hs'
  simp only [Log.apply, Reply.length.injEq, ofHistory] at hfirst hsecond
  rw [hs'] at hh
  rw [hsecond, hh.left.accepted_of_marked (by simp [marked, Event.finishes]), accepted_append,
    hfirst]
  simp [accepted, Event.accepted?]

end

/-! ## Reading on -/

/-- A reader that asks for one entry after another was given the first `n` entries and then, `k`
times, that the log is over; it was told so only by a finished log whose entries it had. -/
structure Delivered (q : Log α) (n : Nat) (rs : List (Option α)) : Prop where
  within : n ≤ q.entries.length
  reads : ∃ k, rs = (q.entries.take n).map some ++ List.replicate k none ∧
    (0 < k → q.shut = true ∧ n = q.entries.length)

section
variable {q : Log α} {n : Nat} {rs : List (Option α)} {x : α}

theorem Log.look_item_iff : q.look n = .item x ↔ q.entries[n]? = some x := by
  unfold Log.look
  cases q.entries[n]? with
  | some y => simp
  | none => cases q.shut <;> simp

theorem Log.look_over_iff : q.look n = .over ↔ q.entries.length ≤ n ∧ q.shut = true := by
  unfold Log.look
  cases hx : q.entries[n]? with
  | some y =>
    have hlt := (List.getElem?_eq_some_iff.1 hx).1
    simp only [reduceCtorEq, false_iff, not_and]
    omega
  | none =>
    have hle := List.getElem?_eq_none_iff.1 hx
    cases q.shut <;> simp [hle]

theorem Log.look_pending_iff :
    q.look n = .pending ↔ q.entries.length ≤ n ∧ q.shut = false := by
  unfold Log.look
  cases hx : q.entries[n]? with
  | some y =>
    have hlt := (List.getElem?_eq_some_iff.1 hx).1
    simp only [reduceCtorEq, false_iff, not_and]
    omega
  | none =>
    have hle := List.getElem?_eq_none_iff.1 hx
    cases q.shut <;> simp [hle]

/-- A read that need not wait answers an entry, or that the log is over. -/
theorem Log.look_cases (h : q.look n ≠ .pending) :
    (∃ x, q.look n = .item x) ∨ q.look n = .over := by
  cases hx : q.entries[n]? with
  | some x => exact .inl ⟨x, Log.look_of_some hx⟩
  | none =>
    have hle := List.getElem?_eq_none_iff.1 hx
    cases hs : q.shut with
    | true => exact .inr (Log.look_over_iff.2 ⟨hle, hs⟩)
    | false => exact absurd (Log.look_pending_iff.2 ⟨hle, hs⟩) h

/-- What a read answered it answers for good: an entry in spite of appends, -/
theorem Log.look_append (hs : q.shut = false) (hr : q.look n ≠ .pending) (y : α) :
    Log.look { q with entries := q.entries ++ [y] } n = q.look n := by
  unfold Log.look at hr ⊢
  cases hx : q.entries[n]? with
  | some x =>
    have hlt := (List.getElem?_eq_some_iff.1 hx).1
    rw [List.getElem?_append_left hlt, hx]
  | none => simp [hx, hs] at hr

/-- and whether or not the log is finished since. -/
theorem Log.look_finish (hr : q.look n ≠ .pending) :
    Log.look { q with shut := true } n = q.look n := by
  unfold Log.look at hr ⊢
  cases hx : q.entries[n]? with
  | some x => rfl
  | none => cases hs : q.shut <;> simp [hx, hs] at hr ⊢

theorem delivered_nil : Delivered q 0 [] := ⟨Nat.zero_le _, 0, by simp, nofun⟩

/-- The next entry is read. -/
theorem Delivered.item (h : Delivered q n rs) (hx : q.look n = .item x) :
    Delivered q (n + 1) (rs ++ [some x]) := by
  have hx := Log.look_item_iff.1 hx
  obtain ⟨hlt, -⟩ := List.getElem?_eq_some_iff.1 hx
  obtain ⟨k, rfl, hk⟩ := h.reads
  have hk0 : k = 0 := by
    rcases Nat.eq_zero_or_pos k with hk0 | hpos
    · exact hk0
    · have := (hk hpos).2; omega
  refine ⟨hlt, 0, ?_, nofun⟩
  subst hk0
  rw [List.take_add_one, hx]
  simp

/-- The reader is told that the log is over. -/
theorem Delivered.over (h : Delivered q n rs) (ho : q.look n = .over) :
    Delivered q n (rs ++ [none]) := by
  obtain ⟨hle, hshut⟩ := Log.look_over_iff.1 ho
  obtain ⟨k, rfl, -⟩ := h.reads
  refine ⟨h.within, k + 1, ?_, fun _ => ⟨hshut, Nat.le_antisymm h.within hle⟩⟩
  rw [List.append_assoc, List.replicate_succ']

/-- A log that is not finished takes another entry. -/
theorem Delivered.append (h : Delivered q n rs) (hs : q.shut = false) (x : α) :
    Delivered { q with entries := q.entries ++ [x] } n rs := by
  obtain ⟨k, rfl, hk⟩ := h.reads
  have hwithin := h.within
  refine ⟨by rw [List.length_append]; omega, k, ?_, fun hpos => ?_⟩
  · rw [List.take_append_of_le_length hwithin]
  · have hshut := (hk hpos).1
    rw [hs] at hshut
    cases hshut

/-- The log is finished. -/
theorem Delivered.finish (h : Delivered q n rs) : Delivered { q with shut := true } n rs := by
  obtain ⟨k, rfl, hk⟩ := h.reads
  exact ⟨h.within, k, rfl, fun hpos => ⟨rfl, (hk hpos).2⟩⟩

end

end SealedLog
