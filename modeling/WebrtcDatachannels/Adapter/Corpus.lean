import WebrtcDatachannels.Adapter.Board

/-!
# The corpus runner of the native adapters

`run_corpus` of `conformance/adapters/common/src/lib.rs`, with the `run_test` of the adapters. Its
stream pulls at most `jobs` attempts ahead of the rows that it has collected, in registry order; the
attempts begin, and their instances end, in any order.
-/

namespace WebrtcDatachannels.Adapter

open Runner

/-- The corpus runner: the attempts, how many the stream has pulled, and the rows collected.
Source: `run_corpus`. -/
structure Corpus where
  board : Board
  pulled : Nat
  results : List RawResult

namespace Corpus

/-- A step of the corpus runner. -/
inductive Label where
  /-- `buffered` takes the next attempt from the stream -/
  | pull
  /-- the future of an attempt is polled first, and takes its room -/
  | start (i : Nat)
  | event (i : Nat) (e : Event)
  /-- `collect` takes the next row -/
  | yield

/-- The runner before its first step. -/
def init (tests only : List String) (n : Nat) : Corpus :=
  { board := Board.fresh (select tests only) n, pulled := 0, results := [] }

/-- One step. -/
def step (jobs : Nat) (s : Corpus) : Label → Option Corpus
  | .pull =>
    if s.pulled < s.board.slots.length ∧ s.pulled - s.results.length < max jobs 1 then
      some { s with pulled := s.pulled + 1 }
    else none
  | .start i =>
    if i < s.pulled then
      (s.board.step Attempt.step (.start i)).map fun b => { s with board := b }
    else none
  | .event i e => (s.board.step Attempt.step (.event i e)).map fun b => { s with board := b }
  | .yield =>
    match s.board.slots[s.results.length]? with
    | some ⟨t, some a⟩ =>
      a.ended.map fun e => { s with results := s.results ++ [row t e] }
    | _ => none

/-- Every row is collected. -/
def Done (s : Corpus) : Prop := s.results.length = s.board.slots.length

/-- The step of the board that a step of the runner is. -/
def Label.op (_ : Corpus) : Label → Option Board.Op
  | .start i => some (.start i)
  | .event i e => some (.event i e)
  | .pull | .yield => none

/-- What the runner keeps of its pulled attempts and of its rows. -/
structure Inv (jobs : Nat) (tests : List String) (s : Corpus) : Prop where
  board : s.board.Inv tests
  within : s.pulled ≤ s.board.slots.length
  window : s.pulled ≤ s.results.length + max jobs 1
  pulled : ∀ i t a, s.board.At i t a → i < s.pulled
  rows : ∀ (i : Nat) r, s.results[i]? = some r →
    ∃ t a e, s.board.At i t a ∧ a.ended = some e ∧ r = row t e

section
variable {jobs n i : Nat} {tests only : List String} {s s' : Corpus} {l : Label} {ls : List Label}

/-- What a step does. -/
theorem step_cases (h : s.step jobs l = some s') :
    (l = .pull ∧ s.pulled < s.board.slots.length ∧ s.pulled - s.results.length < max jobs 1 ∧
      s' = { s with pulled := s.pulled + 1 }) ∨
    (∃ i b, l = .start i ∧ i < s.pulled ∧ s.board.step Attempt.step (.start i) = some b ∧
      s' = { s with board := b }) ∨
    (∃ i e b, l = .event i e ∧ s.board.step Attempt.step (.event i e) = some b ∧
      s' = { s with board := b }) ∨
    (∃ t a e, l = .yield ∧ s.board.At s.results.length t a ∧ a.ended = some e ∧
      s' = { s with results := s.results ++ [row t e] }) := by
  cases l with
  | pull =>
    simp only [step, Option.ite_none_right_eq_some, Option.some.injEq] at h
    obtain ⟨⟨hlt, hwin⟩, rfl⟩ := h
    exact .inl ⟨rfl, hlt, hwin, rfl⟩
  | start i =>
    simp only [step, Option.ite_none_right_eq_some, Option.map_eq_some_iff] at h
    obtain ⟨hi, b, hb, rfl⟩ := h
    exact .inr (.inl ⟨i, b, rfl, hi, hb, rfl⟩)
  | event i e =>
    obtain ⟨b, hb, rfl⟩ := Option.map_eq_some_iff.1 h
    exact .inr (.inr (.inl ⟨i, e, b, rfl, hb, rfl⟩))
  | yield =>
    simp only [step] at h
    split at h
    · next t a hi =>
      obtain ⟨e, he, rfl⟩ := Option.map_eq_some_iff.1 h
      exact .inr (.inr (.inr ⟨t, a, e, rfl, hi, he, rfl⟩))
    · cases h

theorem inv_init (jobs : Nat) (tests only : List String) (n : Nat) :
    (init tests only n).Inv jobs (select tests only) where
  board := Board.inv_fresh _ n
  within := Nat.zero_le _
  window := Nat.zero_le _
  pulled i t a h := by simp [init, Board.At, Board.fresh] at h
  rows i r h := by simp [init] at h

theorem Inv.board_step {op : Board.Op} {b : Board} (h : s.Inv jobs tests)
    (hb : s.board.step Attempt.step op = some b) (hop : ∀ i, op = .start i → i < s.pulled) :
    Inv jobs tests { s with board := b } := by
  refine ⟨h.board.step Attempt.keeps hb, ?_, h.window, ?_, ?_⟩
  · rw [Board.length_step hb]
    exact h.within
  · intro i t a ha
    obtain ⟨a', ha'⟩ | heq := Board.at_begun hb ha
    · exact h.pulled i t a' ha'
    · exact hop i heq
  · intro i r hr
    obtain ⟨t, a, e, ha, he, rfl⟩ := h.rows i r hr
    obtain ⟨a', ha', he'⟩ := Board.at_ended Attempt.keeps hb ha he
    exact ⟨t, a', e, ha', he', rfl⟩

theorem Inv.step (h : s.Inv jobs tests) (hs : s.step jobs l = some s') : s'.Inv jobs tests := by
  have hwindow := h.window
  obtain ⟨rfl, hlt, hwin, rfl⟩ | ⟨i, b, rfl, hi, hb, rfl⟩ | ⟨i, e, b, rfl, hb, rfl⟩ |
    ⟨t, a, e, rfl, ha, he, rfl⟩ := step_cases hs
  · refine ⟨h.board, hlt, ?_, fun i t a ha => Nat.lt_succ_of_lt (h.pulled i t a ha), h.rows⟩
    dsimp only
    omega
  · refine h.board_step hb fun j hj => ?_
    cases hj
    exact hi
  · refine h.board_step hb fun j hj => ?_
    cases hj
  · refine ⟨h.board, h.within, ?_, h.pulled, ?_⟩
    · simp only [List.length_append, List.length_singleton]
      omega
    · intro j r hr
      rw [List.getElem?_append, List.getElem?_singleton] at hr
      split at hr
      · exact h.rows j r hr
      · split at hr
        · next hge hz =>
          cases hr
          obtain rfl : j = s.results.length := by omega
          exact ⟨t, a, e, ha, he, rfl⟩
        · cases hr

theorem inv_run (h : Runs.run (step jobs) (init tests only n) ls = some s) :
    s.Inv jobs (select tests only) :=
  Runs.invariant (fun _ _ _ hi hs => Inv.step hi hs) (inv_init jobs tests only n) h

/-- The runner's board makes the run of what happens to its attempts. -/
theorem board_run (h : Runs.run (step jobs) (init tests only n) ls = some s) :
    Runs.run (Board.step Attempt.step) (Board.fresh (select tests only) n)
      (Runs.shown (step jobs) Label.op (init tests only n) ls) = some s.board := by
  refine Runs.projects (I := fun _ => True) (f := Corpus.board) (fun s l s' _ hs => ⟨trivial, ?_⟩)
    trivial h
  obtain ⟨rfl, -, -, rfl⟩ | ⟨i, b, rfl, -, hb, rfl⟩ | ⟨i, e, b, rfl, hb, rfl⟩ |
    ⟨t, a, e, rfl, -, -, rfl⟩ := step_cases hs
  · rfl
  · exact Runs.run_cons_eq_some.2 ⟨b, hb, rfl⟩
  · exact Runs.run_cons_eq_some.2 ⟨b, hb, rfl⟩
  · rfl

theorem mem_shown {e : Event} (h : Runs.run (step jobs) (init tests only n) ls = some s) :
    .event i e ∈ Runs.shown (step jobs) Label.op (init tests only n) ls ↔ .event i e ∈ ls := by
  refine Runs.mem_shown (fun s l s' _ => ?_) h
  cases l <;> simp [Label.op]

/-- At most `jobs` attempts run at a time. -/
theorem Inv.running (h : s.Inv jobs tests) :
    s.board.slots.countP Slot.running ≤ max jobs 1 := by
  have hle : s.board.slots.countP Slot.running ≤
      (List.range' s.results.length (s.pulled - s.results.length)).length := by
    refine Entries.countP_le_length fun i x hi hx => ?_
    obtain ⟨t, _ | a⟩ := x
    · cases hx
    · have hpulled := h.pulled i t a hi
      have hopen : s.results.length ≤ i := by
        refine Nat.le_of_not_lt fun hlt => ?_
        -- a row is that of an attempt that has ended
        obtain ⟨t', a', e, ha, he, -⟩ := h.rows i _ (List.getElem?_eq_getElem hlt)
        cases ha.symm.trans hi
        simp [Slot.running, he] at hx
      rw [List.mem_range'_1]
      omega
  rw [List.length_range'] at hle
  have hwin := h.window
  omega

theorem tells_of_done (h : Runs.run (step jobs) (init tests only n) ls = some s) (hd : s.Done) :
    Tells (select tests only) (fun i e => .event i e ∈ ls) s.results := by
  have hinv := inv_run h
  have htells := Board.tells Attempt.keeps (board_run h) hd fun i r hr => ?_
  · simpa only [mem_shown h] using htells
  · obtain ⟨t, a, e, ha, he, rfl⟩ := hinv.rows i r hr
    exact ⟨⟨t, some a⟩, ha, a, e, rfl, he, row_testId t e, rfl⟩

/-- How far a runner is from having every row. -/
def rank (s : Corpus) : Nat :=
  (s.board.slots.length - s.pulled) + s.board.rank + (s.board.slots.length - s.results.length)

/-- Without any instance ending, the runner can go on as long as it lacks rows. -/
theorem Inv.progress (h : s.Inv jobs tests) (hd : ¬ s.Done) :
    ∃ l s', (∀ i role x, l ≠ .event i (.instance role x)) ∧ s.step jobs l = some s' ∧
      s'.Inv jobs tests ∧ s'.rank < s.rank := by
  have hlen : s.results.length < s.board.slots.length := by
    refine Nat.lt_of_le_of_ne (Nat.le_of_not_lt fun hlt => ?_) hd
    obtain ⟨t, a, e, ha, -⟩ := h.rows _ _ (List.getElem?_eq_getElem hlt)
    exact Nat.lt_irrefl _ (List.getElem?_eq_some_iff.1 ha).1
  have hmax : 0 < max jobs 1 := Nat.lt_of_lt_of_le Nat.one_pos (Nat.le_max_right _ _)
  obtain ⟨⟨t, o⟩, hslot⟩ : ∃ x, s.board.slots[s.results.length]? = some x :=
    ⟨_, List.getElem?_eq_getElem hlen⟩
  suffices hstep : ∃ l s', (∀ i role x, l ≠ .event i (.instance role x)) ∧
      s.step jobs l = some s' ∧ s'.rank < s.rank by
    obtain ⟨l, s', hl, hs, hlt⟩ := hstep
    exact ⟨l, s', hl, hs, h.step hs, hlt⟩
  rcases Nat.lt_or_ge s.results.length s.pulled with hlt | hge
  · cases o with
    | none =>
      obtain ⟨b, hb, hrank⟩ := Board.rank_start (k := Attempt.step) hslot
      refine ⟨.start s.results.length, { s with board := b }, fun _ _ _ => by simp, ?_, ?_⟩
      · simp only [Corpus.step, if_pos hlt, hb, Option.map_some]
      · simp only [rank, Board.length_step hb]
        omega
    | some a =>
      cases he : a.ended with
      | none =>
        obtain ⟨b, hb, hrank⟩ := Board.rank_timeout Attempt.keeps hslot he
        refine ⟨.event s.results.length .timeout, { s with board := b }, fun _ _ _ => by simp,
          ?_, ?_⟩
        · simp only [Corpus.step, hb, Option.map_some]
        · simp only [rank, Board.length_step hb]
          omega
      | some e =>
        refine ⟨.yield, { s with results := s.results ++ [row t e] }, fun _ _ _ => by simp, ?_, ?_⟩
        · simp only [Corpus.step, hslot, he, Option.map_some]
        · simp only [rank, List.length_append, List.length_singleton]
          omega
  · refine ⟨.pull, { s with pulled := s.pulled + 1 }, fun _ _ _ => by simp, ?_, ?_⟩
    · rw [Corpus.step, if_pos ⟨by omega, by omega⟩]
    · simp only [rank]
      omega

/-- The hang guard alone lets the runner return. -/
theorem Inv.completes (h : s.Inv jobs tests) :
    ∃ more s', (∀ l ∈ more, ∀ i role x, l ≠ Label.event i (.instance role x)) ∧
      Runs.run (Corpus.step jobs) s more = some s' ∧ s'.Done := by
  obtain ⟨more, s', hmore, hrun, -, hd⟩ := Runs.reaches (I := Inv jobs tests) rank
    (fun _ hi hd => Inv.progress hi hd) h
  exact ⟨more, s', hmore, hrun, hd⟩

/-- **The corpus runner of the native adapters.** Whatever the order in which attempts begin, their
instances end and the hang guard fires, at most `jobs` attempts run at a time, no two are run in one
room, and whatever instances never end, the hang guard alone lets `run_corpus` return. When it does,
it has a row for each selected test, in registry order, that passes exactly when every instance of
the test has reported a pass and the guard has not fired, and fails exactly when the guard has
fired, an instance has reported a failure or the adapter had an error. -/
theorem run_corpus_reports (h : Runs.run (step jobs) (init tests only n) ls = some s) :
    s.board.slots.countP Slot.running ≤ max jobs 1 ∧
    (∀ stem base, s.board.RoomsApart stem base) ∧
    (∃ more s', (∀ l ∈ more, ∀ i role x, l ≠ .event i (.instance role x)) ∧
      Runs.run (step jobs) s more = some s' ∧ s'.Done) ∧
    (s.Done → Tells (select tests only) (fun i e => .event i e ∈ ls) s.results) :=
  ⟨(inv_run h).running, (inv_run h).board.rooms_apart, (inv_run h).completes, tells_of_done h⟩

/-- Two tests side by side, of which the first times out and the second passes. -/
theorem run_corpus_reports_of_two : ∃ ls s,
    Runs.run (step 2) (init ["ordering", "error-closed"] [] 0) ls = some s ∧
    s.results.map (·.status) = [.fail, .pass] ∧
    Tells ["ordering", "error-closed"] (fun i e => .event i e ∈ ls) s.results := by
  let ls : List Label := [.pull, .pull, .start 1, .start 0,
    .event 0 (.instance .answerer (.ok .pass)), .event 1 (.instance .both (.ok .pass)),
    .event 0 .timeout, .yield, .yield]
  have h : Runs.run (step 2) (init ["ordering", "error-closed"] [] 0) ls = some _ := rfl
  exact ⟨ls, _, h, rfl, (run_corpus_reports h).2.2.2 rfl⟩

end

end Corpus

end WebrtcDatachannels.Adapter
