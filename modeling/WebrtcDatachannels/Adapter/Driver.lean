import WebrtcDatachannels.Adapter.Board

/-!
# The corpus runner of the jco driver

`runCorpus` of `conformance/adapters/jco/driver.js`. Its workers share the index of the next test
and the number of the next room. A worker takes a test and goes on until it waits for the attempt,
in one piece; when the attempt has ended it stores the row and takes the next test.
-/

namespace WebrtcDatachannels.Adapter.Driver

open Runner

/-- The corpus runner: the attempts, the next test, the test that each worker waits for, and the
rows. Source: `runCorpus`. -/
structure Corpus where
  board : Board
  next : Nat
  workers : List (Option Nat)
  results : List (Option RawResult)

namespace Corpus

/-- A step of the corpus runner: a worker is started, something happens to an attempt, or a worker
whose attempt has ended goes on. -/
inductive Label where
  | spawn
  | event (i : Nat) (e : Event)
  | resume (w : Nat)

/-- The runner before its first worker. -/
def init (tests only : List String) (n : Nat) : Corpus :=
  { board := Board.fresh (select tests only) n, next := 0, workers := [],
    results := List.replicate (select tests only).length none }

/-- A worker takes the next test, or returns when there is none. Source: the loop of `worker`, up to
its `await`. -/
def take (s : Corpus) (w : Nat) : Option Corpus :=
  if s.next < s.board.slots.length then
    (s.board.step Driver.step (.start s.next)).map fun b =>
      { s with board := b, next := s.next + 1, workers := s.workers.set w (some s.next) }
  else some { s with next := s.next + 1, workers := s.workers.set w none }

/-- One step. The workers are started before anything else. -/
def step (jobs : Nat) (s : Corpus) : Label → Option Corpus
  | .spawn =>
    if s.workers.length < max 1 jobs then
      take { s with workers := s.workers ++ [none] } s.workers.length
    else none
  | .event i e =>
    if s.workers.length = max 1 jobs then
      (s.board.step Driver.step (.event i e)).map fun b => { s with board := b }
    else none
  | .resume w =>
    if s.workers.length = max 1 jobs then
      match s.workers[w]? with
      | some (some i) =>
        match s.board.slots[i]? with
        | some ⟨t, some a⟩ =>
          match a.ended with
          | some e => take { s with results := s.results.set i (some (row t e)) } w
          | none => none
        | _ => none
      | _ => none
    else none

/-- Every worker has returned. -/
def Done (jobs : Nat) (s : Corpus) : Prop :=
  s.workers.length = max 1 jobs ∧ ∀ x ∈ s.workers, x = none

/-- The step of the board that a step of the runner is. -/
def Label.op (s : Corpus) : Label → Option Board.Op
  | .spawn | .resume _ => if s.next < s.board.slots.length then some (.start s.next) else none
  | .event i e => some (.event i e)

/-- A row is that of an attempt that has ended. -/
def RowAt (b : Board) (i : Nat) (r : RawResult) : Prop :=
  ∃ t a e, b.At i t a ∧ a.ended = some e ∧ r = row t e

/-- What the runner keeps of its workers and of its rows. The worker `idle`, if there is one, is
about to take a test. -/
structure Inv (jobs : Nat) (tests : List String) (idle : Option Nat) (s : Corpus) : Prop where
  board : s.board.Inv tests
  length : s.results.length = s.board.slots.length
  workers : s.workers.length ≤ max 1 jobs
  begun : ∀ i t a, s.board.At i t a → i < s.next
  taken : ∀ i, i < s.next → i < s.board.slots.length → ∃ t a, s.board.At i t a
  returned : ∀ v : Nat, some v ≠ idle → s.workers[v]? = some none → s.board.slots.length ≤ s.next
  busy : ∀ (v : Nat) i, some v ≠ idle → s.workers[v]? = some (some i) →
    i < s.next ∧ i < s.board.slots.length
  held : ∀ i, i < s.next → i < s.board.slots.length →
    (∃ v : Nat, some v ≠ idle ∧ s.workers[v]? = some (some i)) ∨
      ∃ r, s.results[i]? = some (some r)
  rows : ∀ (i : Nat) r, s.results[i]? = some (some r) → RowAt s.board i r

section
variable {jobs n i w : Nat} {tests only : List String} {s s' : Corpus} {l : Label}
  {ls : List Label} {op : Board.Op} {b : Board} {r : RawResult}

/-- What a worker does. -/
theorem take_cases (h : s.take w = some s') :
    (s.next < s.board.slots.length ∧ ∃ b, s.board.step Driver.step (.start s.next) = some b ∧
      s' = { s with board := b, next := s.next + 1, workers := s.workers.set w (some s.next) }) ∨
    (s.board.slots.length ≤ s.next ∧
      s' = { s with next := s.next + 1, workers := s.workers.set w none }) := by
  unfold take at h
  split at h
  · next hlt =>
    obtain ⟨b, hb, rfl⟩ := Option.map_eq_some_iff.1 h
    exact .inl ⟨hlt, b, hb, rfl⟩
  · next hge =>
    cases h
    exact .inr ⟨Nat.le_of_not_lt hge, rfl⟩

/-- What a step does. -/
theorem step_cases (h : s.step jobs l = some s') :
    (l = .spawn ∧ s.workers.length < max 1 jobs ∧
      take { s with workers := s.workers ++ [none] } s.workers.length = some s') ∨
    (∃ i e b, l = .event i e ∧ s.board.step Driver.step (.event i e) = some b ∧
      s' = { s with board := b }) ∨
    (∃ w i t a e, l = .resume w ∧ s.workers[w]? = some (some i) ∧ s.board.At i t a ∧
      a.ended = some e ∧
      take { s with results := s.results.set i (some (row t e)) } w = some s') := by
  cases l with
  | spawn =>
    simp only [step, Option.ite_none_right_eq_some] at h
    exact .inl ⟨rfl, h.1, h.2⟩
  | event i e =>
    simp only [step, Option.ite_none_right_eq_some, Option.map_eq_some_iff] at h
    obtain ⟨-, b, hb, rfl⟩ := h
    exact .inr (.inl ⟨i, e, b, rfl, hb, rfl⟩)
  | resume w =>
    simp only [step, Option.ite_none_right_eq_some] at h
    obtain ⟨-, h⟩ := h
    split at h
    · next i hw =>
      split at h
      · next t a hi =>
        split at h
        · next e he => exact .inr (.inr ⟨w, i, t, a, e, rfl, hw, hi, he, h⟩)
        · cases h
      · cases h
    · cases h

theorem inv_init (jobs : Nat) (tests only : List String) (n : Nat) :
    (init tests only n).Inv jobs (select tests only) none where
  board := Board.inv_fresh _ n
  length := by simp [init, Board.fresh]
  workers := Nat.zero_le _
  begun i t a h := by simp [init, Board.At, Board.fresh] at h
  taken i h := absurd h (Nat.not_lt_zero i)
  returned v _ h := by simp [init] at h
  busy v i _ h := by simp [init] at h
  held i h := absurd h (Nat.not_lt_zero i)
  rows i r h := by simp [init, List.getElem?_replicate] at h

/-- Rows stay those of their attempts. -/
theorem RowAt.step (hb : s.board.step Driver.step op = some b) (h : RowAt s.board i r) :
    RowAt b i r := by
  obtain ⟨t, a, e, ha, he, rfl⟩ := h
  obtain ⟨a', ha', he'⟩ := Board.at_ended Driver.keeps hb ha he
  exact ⟨t, a', e, ha', he', rfl⟩

theorem Inv.take (h : s.Inv jobs tests (some w)) (hw : w < s.workers.length)
    (hs : s.take w = some s') : s'.Inv jobs tests none := by
  have hne : ∀ {v}, w ≠ v → some v ≠ some w := fun hv heq => hv (Option.some.inj heq).symm
  have hset : ∀ {v i} {x : Option Nat}, some v ≠ some w → s.workers[v]? = some (some i) →
      (s.workers.set w x)[v]? = some (some i) := by
    intro v i x hv hvi
    rw [List.getElem?_set_ne (fun heq => hv (congrArg some heq.symm)), hvi]
  obtain ⟨hlt, b, hb, rfl⟩ | ⟨hge, rfl⟩ := take_cases hs
  · have hlen := Board.length_step hb
    refine ⟨h.board.step Driver.keeps hb, h.length.trans hlen.symm, ?_, ?_, ?_, ?_, ?_, ?_,
      fun i r hr => (h.rows i r hr).step hb⟩
    · simpa using h.workers
    · intro i t a ha
      obtain ⟨a', ha'⟩ | heq := Board.at_begun hb ha
      · exact Nat.lt_succ_of_lt (h.begun i t a' ha')
      · cases heq
        exact Nat.lt_succ_self _
    · intro i hi hi'
      refine Board.at_step hb ?_
      rcases Nat.lt_succ_iff_lt_or_eq.1 hi with hlt | rfl
      · exact .inl (h.taken i hlt (hlen ▸ hi'))
      · exact .inr rfl
    · intro v _ hv
      rw [List.getElem?_set] at hv
      split at hv
      · simp at hv
      · next hwv => exact absurd (h.returned v (hne hwv) hv) (Nat.not_le_of_lt hlt)
    · intro v i _ hv
      dsimp only
      rw [hlen]
      rw [List.getElem?_set] at hv
      split at hv
      · simp only [Option.some.injEq] at hv
        subst hv
        exact ⟨Nat.lt_succ_self _, hlt⟩
      · next hwv =>
        obtain ⟨hi, hi'⟩ := h.busy v i (hne hwv) hv
        exact ⟨Nat.lt_succ_of_lt hi, hi'⟩
    · intro i hi hi'
      rcases Nat.lt_succ_iff_lt_or_eq.1 hi with hlt | rfl
      · obtain ⟨v, hv, hvi⟩ | hr := h.held i hlt (hlen ▸ hi')
        · exact .inl ⟨v, by simp, hset hv hvi⟩
        · exact .inr hr
      · exact .inl ⟨w, by simp, List.getElem?_set_self hw⟩
  · refine ⟨h.board, h.length, ?_, fun i t a ha => Nat.lt_succ_of_lt (h.begun i t a ha),
      fun i _ hi => h.taken i (Nat.lt_of_lt_of_le hi hge) hi, fun v _ _ => Nat.le_succ_of_le hge,
      ?_, ?_, h.rows⟩
    · simpa using h.workers
    · intro v i _ hv
      rw [List.getElem?_set] at hv
      split at hv
      · simp at hv
      · next hwv =>
        obtain ⟨hi, hi'⟩ := h.busy v i (hne hwv) hv
        exact ⟨Nat.lt_succ_of_lt hi, hi'⟩
    · intro i _ hi
      obtain ⟨v, hv, hvi⟩ | hr := h.held i (Nat.lt_of_lt_of_le hi hge) hi
      · exact .inl ⟨v, by simp, hset hv hvi⟩
      · exact .inr hr

/-- A worker that is new is about to take a test. -/
theorem Inv.spawn (h : s.Inv jobs tests none) (hlt : s.workers.length < max 1 jobs) :
    Inv jobs tests (some s.workers.length) { s with workers := s.workers ++ [none] } := by
  have hold : ∀ {v : Nat} {x}, some v ≠ some s.workers.length →
      (s.workers ++ [none])[v]? = some x → s.workers[v]? = some x := by
    intro v x hv hx
    rw [List.getElem?_append] at hx
    split at hx
    · exact hx
    · next hge =>
      have hlen := (List.getElem?_eq_some_iff.1 hx).1
      rw [List.length_singleton] at hlen
      exact absurd (congrArg some (show v = s.workers.length by omega)) hv
  refine ⟨h.board, h.length, ?_, h.begun, h.taken,
    fun v hv hx => h.returned v (by simp) (hold hv hx),
    fun v i hv hx => h.busy v i (by simp) (hold hv hx), ?_, h.rows⟩
  · rw [List.length_append, List.length_singleton]
    exact hlt
  · intro i hi hi'
    obtain ⟨v, -, hvi⟩ | hr := h.held i hi hi'
    · have hv := (List.getElem?_eq_some_iff.1 hvi).1
      refine .inl ⟨v, fun heq => absurd (Option.some.inj heq) (Nat.ne_of_lt hv), ?_⟩
      rw [List.getElem?_append_left hv, hvi]
    · exact .inr hr

/-- A worker whose row is stored is about to take a test. -/
theorem Inv.store (h : s.Inv jobs tests none) (hw : s.workers[w]? = some (some i))
    (hr : RowAt s.board i r) :
    Inv jobs tests (some w) { s with results := s.results.set i (some r) } := by
  obtain ⟨-, hi⟩ := h.busy w i (by simp) hw
  rw [← h.length] at hi
  refine ⟨h.board, by simpa using h.length, h.workers, h.begun, h.taken,
    fun v _ hx => h.returned v (by simp) hx, fun v j _ hx => h.busy v j (by simp) hx, ?_, ?_⟩
  · intro j hj hj'
    by_cases hij : i = j
    · subst hij
      exact .inr ⟨r, List.getElem?_set_self hi⟩
    · obtain ⟨v, -, hvj⟩ | hr := h.held j hj hj'
      · refine .inl ⟨v, ?_, hvj⟩
        rintro ⟨rfl⟩
        cases hw.symm.trans hvj
        exact hij rfl
      · refine .inr ?_
        simp only [List.getElem?_set_ne hij]
        exact hr
  · intro j r' hr'
    by_cases hij : i = j
    · subst hij
      rw [List.getElem?_set_self hi] at hr'
      cases hr'
      exact hr
    · rw [List.getElem?_set_ne hij] at hr'
      exact h.rows j r' hr'

theorem Inv.step (h : s.Inv jobs tests none) (hs : s.step jobs l = some s') :
    s'.Inv jobs tests none := by
  obtain ⟨rfl, hlt, hs⟩ | ⟨i, e, b, rfl, hb, rfl⟩ | ⟨w, i, t, a, e, rfl, hw, ha, he, hs⟩ :=
    step_cases hs
  · exact (h.spawn hlt).take (by simp) hs
  · have hlen := Board.length_step hb
    refine ⟨h.board.step Driver.keeps hb, h.length.trans hlen.symm, h.workers, ?_, ?_, ?_, ?_, ?_,
      fun i r hr => (h.rows i r hr).step hb⟩
    · intro j t a ha
      obtain ⟨a', ha'⟩ | heq := Board.at_begun hb ha
      · exact h.begun j t a' ha'
      · cases heq
    · exact fun j hj hj' => Board.at_step hb (.inl (h.taken j hj (hlen ▸ hj')))
    · exact fun v hv hx => hlen.symm ▸ h.returned v hv hx
    · exact fun v j hv hx => hlen.symm ▸ h.busy v j hv hx
    · exact fun j hj hj' => h.held j hj (hlen ▸ hj')
  · exact (h.store hw ⟨t, a, e, ha, he, rfl⟩).take (List.getElem?_eq_some_iff.1 hw).1 hs

theorem inv_run (h : Runs.run (step jobs) (init tests only n) ls = some s) :
    s.Inv jobs (select tests only) none :=
  Runs.invariant (fun _ _ _ hi hs => Inv.step hi hs) (inv_init jobs tests only n) h

/-- A worker that goes on makes the step of the board that it shows. -/
theorem take_board {s₀ : Corpus} (h : s₀.take w = some s') (hb : s₀.board = s.board)
    (hn : s₀.next = s.next) :
    Runs.run (Board.step Driver.step) s.board
      (if s.next < s.board.slots.length then some (Board.Op.start s.next) else none).toList =
        some s'.board := by
  obtain ⟨hlt, b, hb', rfl⟩ | ⟨hge, rfl⟩ := take_cases h
  · rw [hb, hn] at hlt hb'
    rw [if_pos hlt]
    exact Runs.run_cons_eq_some.2 ⟨b, hb', rfl⟩
  · rw [hb, hn] at hge
    rw [if_neg (Nat.not_lt_of_le hge)]
    exact congrArg some hb.symm

/-- The runner's board makes the run of what happens to its attempts. -/
theorem board_run (h : Runs.run (step jobs) (init tests only n) ls = some s) :
    Runs.run (Board.step Driver.step) (Board.fresh (select tests only) n)
      (Runs.shown (step jobs) Label.op (init tests only n) ls) = some s.board := by
  refine Runs.projects (I := fun _ => True) (f := Corpus.board) (fun s l s' _ hs => ⟨trivial, ?_⟩)
    trivial h
  obtain ⟨rfl, -, hs⟩ | ⟨i, e, b, rfl, hb, rfl⟩ | ⟨w, i, t, a, e, rfl, -, -, -, hs⟩ := step_cases hs
  · exact take_board hs rfl rfl
  · exact Runs.run_cons_eq_some.2 ⟨b, hb, rfl⟩
  · exact take_board hs rfl rfl

theorem mem_shown {e : Event} (h : Runs.run (step jobs) (init tests only n) ls = some s) :
    .event i e ∈ Runs.shown (step jobs) Label.op (init tests only n) ls ↔ .event i e ∈ ls := by
  refine Runs.mem_shown (fun s l s' _ => ?_) h
  cases l <;> simp [Label.op]

/-- At most `jobs` attempts run that a worker waits for. -/
theorem Inv.running (h : s.Inv jobs tests none) :
    s.board.slots.countP Slot.running ≤ max 1 jobs := by
  refine Nat.le_trans ?_ (Nat.le_trans (List.length_filterMap_le id s.workers) h.workers)
  refine Entries.countP_le_length fun i x hi hx => ?_
  obtain ⟨t, _ | a⟩ := x
  · cases hx
  · obtain ⟨v, -, hv⟩ | ⟨r, hr⟩ :=
      h.held i (h.begun i t a hi) (List.getElem?_eq_some_iff.1 hi).1
    · exact List.mem_filterMap.2 ⟨some i, List.mem_of_getElem? hv, rfl⟩
    · -- a row is that of an attempt that has ended
      obtain ⟨t', a', e, ha, he, -⟩ := h.rows i r hr
      cases ha.symm.trans hi
      simp [Slot.running, he] at hx

/-- When every worker has returned, every row is there. -/
theorem Inv.rows_of_done (h : s.Inv jobs tests none) (hd : s.Done jobs) :
    ∃ rows : List RawResult, s.results = rows.map some := by
  obtain ⟨hlen, hnone⟩ := hd
  have hge : s.board.slots.length ≤ s.next := by
    have hpos : 0 < s.workers.length :=
      hlen ▸ Nat.lt_of_lt_of_le Nat.one_pos (Nat.le_max_left 1 jobs)
    refine h.returned 0 (by simp) ?_
    rw [List.getElem?_eq_getElem hpos, hnone _ (List.getElem_mem hpos)]
  refine Entries.eq_map_some fun x hx => ?_
  obtain ⟨i, hi, rfl⟩ := List.getElem_of_mem hx
  have hi' : i < s.board.slots.length := h.length ▸ hi
  obtain ⟨v, -, hv⟩ | ⟨r, hr⟩ := h.held i (Nat.lt_of_lt_of_le hi' hge) hi'
  · cases hnone _ (List.mem_of_getElem? hv)
  · rw [List.getElem?_eq_getElem hi, Option.some.injEq] at hr
    rw [hr]
    rfl

theorem tells_of_done (h : Runs.run (step jobs) (init tests only n) ls = some s)
    (hd : s.Done jobs) : ∃ rows, s.results = rows.map some ∧
      Tells (select tests only) (fun i e => .event i e ∈ ls) rows := by
  have hinv := inv_run h
  obtain ⟨rows, hrows⟩ := hinv.rows_of_done hd
  have hlen := hinv.length
  rw [hrows, List.length_map] at hlen
  refine ⟨rows, hrows, ?_⟩
  have htells := Board.tells Driver.keeps (board_run h) hlen fun i r hr => ?_
  · simpa only [mem_shown h] using htells
  · obtain ⟨t, a, e, ha, he, rfl⟩ := hinv.rows i r (by rw [hrows, List.getElem?_map, hr]; rfl)
    exact ⟨⟨t, some a⟩, ha, a, e, rfl, he, (row_status t e).1, (row_status t e).2⟩

/-- How many workers wait for an attempt. -/
def waiting (s : Corpus) : Nat := s.workers.countP (·.isSome)

/-- A worker that is about to take a test can, or returns. -/
theorem Inv.take_exists (h : s.Inv jobs tests (some w)) {x : Option Nat}
    (hx : s.workers[w]? = some x) : ∃ s', s.take w = some s' ∧
      s'.workers.length = s.workers.length ∧
      s'.board.rank + s'.waiting + (if x.isSome then 1 else 0) ≤ s.board.rank + s.waiting := by
  by_cases hlt : s.next < s.board.slots.length
  · obtain ⟨⟨t, o⟩, hslot⟩ : ∃ y, s.board.slots[s.next]? = some y :=
      ⟨_, List.getElem?_eq_getElem hlt⟩
    obtain rfl : o = none := by
      cases o with
      | none => rfl
      | some a => exact absurd (h.begun s.next t a hslot) (Nat.lt_irrefl _)
    obtain ⟨b, hb, hrank⟩ := Board.rank_start (k := Driver.step) hslot
    have hcount := Entries.countP_set (y := some s.next) (fun y : Option Nat => y.isSome) hx
    refine ⟨_, by rw [Corpus.take, if_pos hlt, hb, Option.map_some], by simp, ?_⟩
    simp only [waiting, Option.isSome_some, if_true] at hcount ⊢
    omega
  · have hcount := Entries.countP_set (y := none) (fun y : Option Nat => y.isSome) hx
    refine ⟨_, by rw [Corpus.take, if_neg hlt], by simp, ?_⟩
    simp only [waiting, Option.isSome_none, Bool.false_eq_true, if_false] at hcount ⊢
    omega

/-- How far a runner is from having returned. -/
def rank (jobs : Nat) (s : Corpus) : Nat :=
  s.board.rank + s.waiting + (max 1 jobs - s.workers.length)

/-- Without any instance ending, the runner can go on as long as a worker has not returned. -/
theorem Inv.progress (h : s.Inv jobs tests none) (hd : ¬ s.Done jobs) :
    ∃ l s', (∀ i role x, l ≠ .event i (.instance role x)) ∧ s.step jobs l = some s' ∧
      s'.Inv jobs tests none ∧ s'.rank jobs < s.rank jobs := by
  suffices hstep : ∃ l s', (∀ i role x, l ≠ .event i (.instance role x)) ∧
      s.step jobs l = some s' ∧ s'.rank jobs < s.rank jobs by
    obtain ⟨l, s', hl, hs, hlt⟩ := hstep
    exact ⟨l, s', hl, hs, h.step hs, hlt⟩
  rcases Nat.lt_or_ge s.workers.length (max 1 jobs) with hlt | hge
  · -- a worker is yet to be started
    have hx : (s.workers ++ [none])[s.workers.length]? = some none := by simp
    obtain ⟨s', hs, hlen, hle⟩ := (h.spawn hlt).take_exists hx
    refine ⟨.spawn, s', fun _ _ _ => by simp, ?_, ?_⟩
    · rw [Corpus.step, if_pos hlt, hs]
    · have hwait : Corpus.waiting { s with workers := s.workers ++ [none] } = s.waiting := by
        simp [waiting]
      simp only [hwait, List.length_append, List.length_singleton, Option.isSome_none,
        Bool.false_eq_true, if_false, Nat.add_zero] at hle hlen
      simp only [rank]
      omega
  · have hmax : s.workers.length = max 1 jobs := Nat.le_antisymm h.workers hge
    obtain ⟨x, hx, hne⟩ : ∃ x ∈ s.workers, x ≠ none := by
      simpa [Done, hmax] using hd
    obtain ⟨i, rfl⟩ := Option.ne_none_iff_exists'.1 hne
    obtain ⟨w, hw⟩ := List.mem_iff_getElem?.1 hx
    obtain ⟨hnext, hi⟩ := h.busy w i (by simp) hw
    obtain ⟨t, a, ha⟩ := h.taken i hnext hi
    cases he : a.ended with
    | none =>
      obtain ⟨b, hb, hrank⟩ := Board.rank_timeout Driver.keeps ha he
      refine ⟨.event i .timeout, { s with board := b }, fun _ _ _ => by simp, ?_, ?_⟩
      · rw [Corpus.step, if_pos hmax, hb, Option.map_some]
      · simp only [rank, waiting]
        omega
    | some e =>
      obtain ⟨s', hs, hlen, hle⟩ := (h.store hw ⟨t, a, e, ha, he, rfl⟩).take_exists hw
      have hslot : s.board.slots[i]? = some ⟨t, some a⟩ := ha
      refine ⟨.resume w, s', fun _ _ _ => by simp, ?_, ?_⟩
      · simp only [Corpus.step, if_pos hmax, hw, hslot, he, hs]
      · simp only [waiting, Option.isSome_some, if_true] at hle hlen
        simp only [rank, waiting]
        omega

/-- The hang guard alone lets the runner return. -/
theorem Inv.completes (h : s.Inv jobs tests none) :
    ∃ more s', (∀ l ∈ more, ∀ i role x, l ≠ Label.event i (.instance role x)) ∧
      Runs.run (Corpus.step jobs) s more = some s' ∧ s'.Done jobs := by
  obtain ⟨more, s', hmore, hrun, -, hd⟩ := Runs.reaches (I := (Inv jobs tests none)) (rank jobs)
    (fun _ hi hd => Inv.progress hi hd) h
  exact ⟨more, s', hmore, hrun, hd⟩

/-- **The corpus runner of the jco driver.** Whatever the order in which instances end and the hang
guard fires, at most `jobs` attempts run that are not over, no two are run in one room, and whatever
instances never end, the hang guard alone lets `runCorpus` return. When it does, it has a row for
each selected test, in registry order, that passes exactly when every instance of the test has
reported a pass and the guard has not fired, and fails exactly when the guard has fired, an instance
has reported a failure or has thrown; instances that go on behind a fired guard change no row. -/
theorem runCorpus_reports (h : Runs.run (step jobs) (init tests only n) ls = some s) :
    s.board.slots.countP Slot.running ≤ max 1 jobs ∧
    (∀ stem base, s.board.RoomsApart stem base) ∧
    (∃ more s', (∀ l ∈ more, ∀ i role x, l ≠ .event i (.instance role x)) ∧
      Runs.run (step jobs) s more = some s' ∧ s'.Done jobs) ∧
    (s.Done jobs → ∃ rows, s.results = rows.map some ∧
      Tells (select tests only) (fun i e => .event i e ∈ ls) rows) :=
  ⟨(inv_run h).running, (inv_run h).board.rooms_apart, (inv_run h).completes, tells_of_done h⟩

/-- A test that times out while its instances go on and pass, and one that its worker takes
next. -/
theorem runCorpus_reports_of_late : ∃ ls s,
    Runs.run (step 1) (init ["ordering", "error-closed"] [] 0) ls = some s ∧
    ∃ rows, s.results = rows.map some ∧
      Tells ["ordering", "error-closed"] (fun i e => .event i e ∈ ls) rows := by
  let ls : List Label := [.spawn, .event 0 .timeout, .resume 0,
    .event 0 (.instance .offerer (.ok .pass)), .event 1 (.instance .both (.ok .pass)),
    .event 0 (.instance .answerer (.ok .pass)), .resume 0]
  have h : Runs.run (step 1) (init ["ordering", "error-closed"] [] 0) ls = some _ := rfl
  exact ⟨ls, _, h, (runCorpus_reports h).2.2.2 ⟨rfl, by decide⟩⟩

end

end Corpus

end WebrtcDatachannels.Adapter.Driver
