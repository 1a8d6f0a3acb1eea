import Mathlib.Tactic.IntervalCases
import WebrtcDatachannels.Adapter.Attempt
import WebrtcDatachannels.Signaling.Http

/-!
# The attempts of a corpus run

What `run_corpus` of the native adapters and `runCorpus` of the jco driver have in common: the
selected tests, each with its attempt once that has begun, and the counter that numbers the rooms.
Whoever starts the attempts, in whatever order their instances end, the rows of a corpus whose
attempts have all ended tell of each test what has happened to its instances (`Board.tells`), and no
two attempts share a room (`Board.Inv.rooms_apart`).
-/

namespace WebrtcDatachannels.Adapter

open Runner

/-- The tests to run. Source: the filters in `run_corpus` and `runCorpus`. -/
def select (tests only : List String) : List String :=
  tests.filter fun t => only.isEmpty || only.any (· == t)

/-- The room of an attempt. Source: `run_test`, `runTest`. -/
def roomName (stem testId : String) (n : Nat) : String :=
  stem ++ "-" ++ testId ++ "-" ++ toString n

/-- A selected test, with its attempt once that has begun. -/
structure Slot where
  test : String
  attempt : Option Attempt

/-- The slots of a corpus, and the counter for its rooms. -/
structure Board where
  slots : List Slot
  roomSeq : Nat

/-- Whether the attempt at a test runs. -/
def Slot.running (s : Slot) : Bool :=
  match s.attempt with
  | some a => a.ended.isNone
  | none => false

/-- Whether the attempt at a test is yet to end. -/
def Slot.open (s : Slot) : Bool := (s.attempt.bind (·.ended)).isNone

namespace Board

/-- An attempt begins, or something happens to it. -/
inductive Op where
  | start (i : Nat)
  | event (i : Nat) (e : Event)

/-- A corpus before its first attempt. -/
def fresh (tests : List String) (n : Nat) : Board :=
  { slots := tests.map fun t => { test := t, attempt := none }, roomSeq := n }

/-- One step, for attempts of a kind `k`. -/
def step (k : Attempt → Event → Option Attempt) (b : Board) : Op → Option Board
  | .start i =>
    match b.slots[i]? with
    | some ⟨t, none⟩ =>
      some { slots := b.slots.set i ⟨t, some (Attempt.fresh t b.roomSeq)⟩,
             roomSeq := b.roomSeq + 1 }
    | _ => none
  | .event i e =>
    match b.slots[i]? with
    | some ⟨t, some a⟩ =>
      (k a e).map fun a' => { b with slots := b.slots.set i ⟨t, some a'⟩ }
    | _ => none

/-- The attempt at a test is `a`. -/
def At (b : Board) (i : Nat) (t : String) (a : Attempt) : Prop :=
  b.slots[i]? = some ⟨t, some a⟩

/-- What a board keeps of the tests it was set up for. -/
structure Inv (tests : List String) (b : Board) : Prop where
  tests : b.slots.map (·.test) = tests
  ok : ∀ i t a, b.At i t a → a.Inv ∧ a.instances.roles = (planFor t).roles ∧ a.room < b.roomSeq
  apart : ∀ i j t t' a a', b.At i t a → b.At j t' a' → a.room = a'.room → i = j

section
variable {k : Attempt → Event → Option Attempt} {b b' : Board} {op : Op} {ops : List Op}
  {tests : List String} {n i j : Nat} {t : String} {a a' : Attempt}

/-- What a step does. -/
theorem step_cases (h : b.step k op = some b') :
    (∃ i t, op = .start i ∧ b.slots[i]? = some ⟨t, none⟩ ∧
      b' = { slots := b.slots.set i ⟨t, some (Attempt.fresh t b.roomSeq)⟩,
             roomSeq := b.roomSeq + 1 }) ∨
    (∃ i e t a a', op = .event i e ∧ b.At i t a ∧ k a e = some a' ∧
      b' = { b with slots := b.slots.set i ⟨t, some a'⟩ }) := by
  cases op with
  | start i =>
    simp only [step] at h
    split at h
    · next t hi => exact .inl ⟨i, t, rfl, hi, (Option.some.inj h).symm⟩
    · cases h
  | event i e =>
    simp only [step] at h
    split at h
    · next t a hi =>
      obtain ⟨a', ha, rfl⟩ := Option.map_eq_some_iff.1 h
      exact .inr ⟨i, e, t, a, a', rfl, hi, ha, rfl⟩
    · cases h

theorem step_start (h : b.slots[i]? = some ⟨t, none⟩) :
    b.step k (.start i) =
      some { slots := b.slots.set i ⟨t, some (Attempt.fresh t b.roomSeq)⟩,
             roomSeq := b.roomSeq + 1 } := by
  simp only [step, h]

theorem step_event (h : b.At i t a) {e : Event} (ha : k a e = some a') :
    b.step k (.event i e) = some { b with slots := b.slots.set i ⟨t, some a'⟩ } := by
  have hi : b.slots[i]? = some ⟨t, some a⟩ := h
  simp only [step, hi, ha, Option.map_some]

/-- The attempts after the slot `i` was given `a`. -/
theorem at_set {x : Slot} (hi : b.slots[i]? = some x) {m : Nat} {t' : String} {a' : Attempt} :
    At { slots := b.slots.set i ⟨t, some a⟩, roomSeq := m } j t' a' ↔
      (j = i ∧ t = t' ∧ a = a') ∨ (j ≠ i ∧ b.At j t' a') := by
  have hlt := (List.getElem?_eq_some_iff.1 hi).1
  by_cases h : j = i
  · subst h
    simp [At, List.getElem?_set_self hlt]
  · simp [At, List.getElem?_set_ne (Ne.symm h), h]

theorem inv_fresh (tests : List String) (n : Nat) : (fresh tests n).Inv tests where
  tests := by simp [fresh, Function.comp_def]
  ok i t a h := by simp [At, fresh] at h
  apart i j t t' a a' h := by simp [At, fresh] at h

theorem map_test_set {x : Slot} (hi : b.slots[i]? = some x) (o : Option Attempt) :
    (b.slots.set i ⟨x.test, o⟩).map (·.test) = b.slots.map (·.test) := by
  obtain ⟨hlt, rfl⟩ := List.getElem?_eq_some_iff.1 hi
  have hlt' : i < (b.slots.map (·.test)).length := by simpa using hlt
  have hmap : (b.slots.map (·.test))[i] = b.slots[i].test := List.getElem_map _
  rw [List.map_set, ← hmap, List.set_getElem_self]

theorem Inv.step (hk : Keeps k) (h : b.Inv tests) (hs : b.step k op = some b') :
    b'.Inv tests := by
  obtain ⟨i, t, rfl, hi, rfl⟩ | ⟨i, e, t, a, a', rfl, hi, ha, rfl⟩ := step_cases hs
  · refine ⟨(map_test_set hi _).trans h.tests, ?_, ?_⟩
    · intro j t' a' hj
      obtain ⟨rfl, rfl, rfl⟩ | ⟨-, hj⟩ := (at_set hi).1 hj
      · exact ⟨Attempt.inv_none rfl, Instances.roles_instances _, Nat.lt_succ_self _⟩
      · obtain ⟨hinv, hroles, hroom⟩ := h.ok j t' a' hj
        exact ⟨hinv, hroles, Nat.lt_succ_of_lt hroom⟩
    · intro j j' t₁ t₂ a₁ a₂ h₁ h₂ hroom
      obtain ⟨rfl, rfl, rfl⟩ | ⟨-, g₁⟩ := (at_set hi).1 h₁ <;>
        obtain ⟨rfl, rfl, rfl⟩ | ⟨-, g₂⟩ := (at_set hi).1 h₂
      · rfl
      · exact absurd hroom (Nat.ne_of_gt (h.ok _ _ _ g₂).2.2)
      · exact absurd hroom (Nat.ne_of_lt (h.ok _ _ _ g₁).2.2)
      · exact h.apart _ _ _ _ _ _ g₁ g₂ hroom
  · refine ⟨(map_test_set hi _).trans h.tests, ?_, ?_⟩
    · intro j t' a₁ hj
      obtain ⟨rfl, rfl, rfl⟩ | ⟨-, hj⟩ := (at_set hi).1 hj
      · obtain ⟨hinv, hroles, hroom⟩ := h.ok _ _ _ hi
        refine ⟨hk.inv ha hinv, (hk.roles ha).trans hroles, ?_⟩
        rw [hk.room ha]
        exact hroom
      · exact h.ok j t' a₁ hj
    · intro j j' t₁ t₂ a₁ a₂ h₁ h₂ hroom
      obtain ⟨rfl, rfl, rfl⟩ | ⟨-, g₁⟩ := (at_set hi).1 h₁ <;>
        obtain ⟨rfl, rfl, rfl⟩ | ⟨-, g₂⟩ := (at_set hi).1 h₂
      · rfl
      · rw [hk.room ha] at hroom
        exact h.apart _ _ _ _ _ _ hi g₂ hroom
      · rw [hk.room ha] at hroom
        exact h.apart _ _ _ _ _ _ g₁ hi hroom
      · exact h.apart _ _ _ _ _ _ g₁ g₂ hroom

theorem inv_run (hk : Keeps k) (h : Runs.run (step k) (fresh tests n) ops = some b) :
    b.Inv tests :=
  Runs.invariant (fun _ _ _ hi hs => Inv.step hk hi hs) (inv_fresh tests n) h

theorem length_step (h : b.step k op = some b') : b'.slots.length = b.slots.length := by
  obtain ⟨i, t, -, -, rfl⟩ | ⟨i, e, t, a, a', -, -, -, rfl⟩ := step_cases h <;> simp

/-- An attempt that has ended stays so. -/
theorem at_ended (hk : Keeps k) (h : b.step k op = some b') (ha : b.At i t a) {e : End}
    (he : a.ended = some e) : ∃ a', b'.At i t a' ∧ a'.ended = some e := by
  obtain ⟨j, t', rfl, hj, rfl⟩ | ⟨j, e', t', a₁, a₂, rfl, hj, he', rfl⟩ := step_cases h
  · refine ⟨a, (at_set hj).2 (.inr ⟨?_, ha⟩), he⟩
    rintro rfl
    cases ha.symm.trans hj
  · by_cases hij : i = j
    · subst hij
      cases ha.symm.trans hj
      exact ⟨a₂, (at_set hj).2 (.inl ⟨rfl, rfl, rfl⟩), hk.ended he' he⟩
    · exact ⟨a, (at_set hj).2 (.inr ⟨hij, ha⟩), he⟩

/-- The attempt that a step starts is there, and those that were. -/
theorem at_step (h : b.step k op = some b') (hi : (∃ t a, b.At i t a) ∨ op = .start i) :
    ∃ t a, b'.At i t a := by
  obtain ⟨j, t', rfl, hj, rfl⟩ | ⟨j, e', t', a₁, a₂, rfl, hj, he', rfl⟩ := step_cases h
  · by_cases hij : i = j
    · exact ⟨t', _, (at_set hj).2 (.inl ⟨hij, rfl, rfl⟩)⟩
    · obtain ⟨t, a, ha⟩ := hi.resolve_right (fun heq => hij (Op.start.inj heq).symm)
      exact ⟨t, a, (at_set hj).2 (.inr ⟨hij, ha⟩)⟩
  · by_cases hij : i = j
    · exact ⟨t', _, (at_set hj).2 (.inl ⟨hij, rfl, rfl⟩)⟩
    · obtain ⟨t, a, ha⟩ := hi.resolve_right (fun heq => by cases heq)
      exact ⟨t, a, (at_set hj).2 (.inr ⟨hij, ha⟩)⟩

/-- An attempt has begun before, or begins now. -/
theorem at_begun (h : b.step k op = some b') (ha : b'.At i t a) :
    (∃ a', b.At i t a') ∨ op = .start i := by
  obtain ⟨j, t', rfl, hj, rfl⟩ | ⟨j, e', t', a₁, a₂, rfl, hj, he', rfl⟩ := step_cases h
  · obtain ⟨rfl, -, -⟩ | ⟨-, ha⟩ := (at_set hj).1 ha
    · exact .inr rfl
    · exact .inl ⟨a, ha⟩
  · obtain ⟨rfl, rfl, -⟩ | ⟨-, ha⟩ := (at_set hj).1 ha
    · exact .inl ⟨a₁, hj⟩
    · exact .inl ⟨a, ha⟩

/-- How far the attempts are from having ended. -/
def rank (b : Board) : Nat :=
  b.slots.countP (fun s => s.attempt.isNone) + b.slots.countP Slot.open

theorem rank_start (h : b.slots[i]? = some ⟨t, none⟩) :
    ∃ b', b.step k (.start i) = some b' ∧ b'.rank < b.rank := by
  refine ⟨_, step_start h, ?_⟩
  have hbegun := Entries.countP_set (y := ⟨t, some (Attempt.fresh t b.roomSeq)⟩)
    (fun s : Slot => s.attempt.isNone) h
  have hopen := Entries.countP_set (y := ⟨t, some (Attempt.fresh t b.roomSeq)⟩) Slot.open h
  simp only [Slot.open, Option.bind_none, Option.isNone_none, if_true, Option.isNone_some,
    Bool.false_eq_true, if_false, Option.bind_some, Attempt.fresh] at hbegun hopen
  simp only [rank, Attempt.fresh]
  omega

/-- The hang guard can fire for every attempt that runs. -/
theorem rank_timeout (hk : Keeps k) (h : b.At i t a) (he : a.ended = none) :
    ∃ b', b.step k (.event i .timeout) = some b' ∧ b'.rank < b.rank := by
  refine ⟨_, step_event h (hk.guard he), ?_⟩
  have hbegun := Entries.countP_set (y := ⟨t, some { a with ended := some .timedOut }⟩)
    (fun s : Slot => s.attempt.isNone) h
  have hopen := Entries.countP_set (y := ⟨t, some { a with ended := some .timedOut }⟩) Slot.open h
  simp only [Slot.open, he, Option.isNone_none, if_true, Option.isNone_some, Bool.false_eq_true,
    if_false, Option.bind_some] at hbegun hopen
  simp only [rank]
  omega

theorem exists_at (ha : b.At i t a) {P : Attempt → Prop} : (∃ t a, b.At i t a ∧ P a) ↔ P a := by
  constructor
  · rintro ⟨t', a', ha', h⟩
    cases ha.symm.trans ha'
    exact h
  · exact fun h => ⟨t, a, ha, h⟩

/-- What an event brings about in an attempt, and nothing else does, is there exactly when the event
has happened. -/
theorem seen_iff {P : Attempt → Prop} {e : Event} (hfresh : ∀ t m, ¬ P (Attempt.fresh t m))
    (hstep : ∀ a e' a', k a e' = some a' → (P a' ↔ P a ∨ e' = e))
    (h : Runs.run (step k) (fresh tests n) ops = some b) (ha : b.At i t a) :
    P a ↔ .event i e ∈ ops := by
  have hiff := Runs.happened (I := fun _ => True) (P := fun b => ∃ t a, b.At i t a ∧ P a)
    (Q := fun op => op = .event i e) ?_ trivial h
  · have hnone : ¬ ∃ t a, (fresh tests n).At i t a ∧ P a := by
      rintro ⟨t, a, h, -⟩
      simp [At, fresh] at h
    rwa [or_iff_right hnone, exists_eq_right, exists_at ha] at hiff
  · intro b op b' _ hs
    refine ⟨trivial, ?_⟩
    obtain ⟨j, t, rfl, hj, rfl⟩ | ⟨j, e', t, a, a', rfl, hj, he, rfl⟩ := step_cases hs
    · simp only [at_set hj, reduceCtorEq, or_false]
      constructor
      · rintro ⟨t', a', ⟨rfl, rfl, rfl⟩ | ⟨-, ha'⟩, hP⟩
        · exact absurd hP (hfresh _ _)
        · exact ⟨t', a', ha', hP⟩
      · rintro ⟨t', a', ha', hP⟩
        refine ⟨t', a', .inr ⟨?_, ha'⟩, hP⟩
        rintro rfl
        cases ha'.symm.trans hj
    · by_cases hij : i = j
      · subst hij
        have hset : At { b with slots := b.slots.set i ⟨t, some a'⟩ } i t a' :=
          (at_set hj).2 (.inl ⟨rfl, rfl, rfl⟩)
        rw [exists_at hset, exists_at hj, hstep a e' a' he]
        simp
      · have hkeep : ∀ t₁ a₁, At { b with slots := b.slots.set j ⟨t, some a'⟩ } i t₁ a₁ ↔
            b.At i t₁ a₁ := fun t₁ a₁ => by simp [at_set hj, hij]
        simp [hkeep, Ne.symm hij]

/-! ## The rows -/

end

end Board

/-- Every instance of an attempt at a test has reported a pass, and the hang guard has not fired. -/
def PassedIn (happened : Nat → Event → Prop) (i : Nat) (testId : String) : Prop :=
  ¬ happened i .timeout ∧
    ∀ role ∈ (planFor testId).roles, happened i (.instance role (.ok .pass))

/-- The hang guard has fired for an attempt at a test, an instance has reported a failure, or the
adapter had an error. -/
def FailedIn (happened : Nat → Event → Prop) (i : Nat) (testId : String) : Prop :=
  happened i .timeout ∨ ∃ role ∈ (planFor testId).roles, ∃ text,
    happened i (.instance role (.error text)) ∨ happened i (.instance role (.ok (.fail text)))

/-- What rows tell of what has happened to the attempts at some tests: there is a row for each test,
in their order, that passes or fails exactly when the attempt has. -/
def Tells (tests : List String) (happened : Nat → Event → Prop) (rows : List RawResult) : Prop :=
  rows.map (·.testId) = tests ∧ ∀ i row, rows[i]? = some row →
    (row.status = .pass ↔ PassedIn happened i row.testId) ∧
    (row.status = .fail ↔ FailedIn happened i row.testId)

/-- The row of a slot whose attempt has ended, up to the text of an adapter's error. -/
def RowOf (s : Slot) (r : RawResult) : Prop :=
  ∃ a t, s.attempt = some a ∧ a.ended = some t ∧ r.testId = s.test ∧
    r.status = (row s.test t).status

namespace Board

section
variable {k : Attempt → Event → Option Attempt} {b : Board} {ops : List Op} {tests : List String}
  {n i : Nat} {t : String} {a : Attempt}

theorem get_iff (hk : Keeps k) (h : Runs.run (step k) (fresh tests n) ops = some b)
    (ha : b.At i t a) (role : Role) (x : InstanceResult) :
    a.instances.get role = some x ↔ .event i (.instance role x) ∈ ops := by
  refine seen_iff (P := fun a => a.instances.get role = some x) (fun t m => ?_)
    (fun a e a' he => hk.get he) h ha
  rw [Attempt.fresh, Instances.get_instances]
  simp

theorem timedOut_iff (hk : Keeps k) (h : Runs.run (step k) (fresh tests n) ops = some b)
    (ha : b.At i t a) : a.ended = some .timedOut ↔ .event i .timeout ∈ ops :=
  seen_iff (P := fun a => a.ended = some .timedOut) (fun t m => by simp [Attempt.fresh])
    (fun a e a' he => hk.timedOut he) h ha

/-- The rows of a board whose attempts have all ended tell of what has happened to them. -/
theorem tells (hk : Keeps k) (h : Runs.run (step k) (fresh tests n) ops = some b)
    {rows : List RawResult} (hlen : rows.length = b.slots.length)
    (hrows : ∀ (i : Nat) r, rows[i]? = some r → ∃ s, b.slots[i]? = some s ∧ RowOf s r) :
    Tells tests (fun i e => .event i e ∈ ops) rows := by
  have hinv := inv_run hk h
  constructor
  · rw [← hinv.tests]
    refine List.ext_getElem? fun i => ?_
    rw [List.getElem?_map, List.getElem?_map]
    cases hr : rows[i]? with
    | none =>
      rw [List.getElem?_eq_none (hlen ▸ List.getElem?_eq_none_iff.1 hr)]
      rfl
    | some r =>
      obtain ⟨s, hs, -, -, -, -, hid, -⟩ := hrows i r hr
      rw [hs, Option.map_some, Option.map_some, hid]
  · intro i r hr
    obtain ⟨s, hs, a, e, ha, he, hid, hstatus⟩ := hrows i r hr
    have hat : b.At i s.test a := by rw [At, hs, ← ha]
    obtain ⟨hok, hroles, -⟩ := hinv.ok i s.test a hat
    rw [hstatus, hid, hok.row_pass he, hok.row_fail he, ne_eq, timedOut_iff hk h hat,
      Instances.Passed, Instances.Failed, hroles]
    constructor <;> simp only [get_iff hk h hat, PassedIn, FailedIn]

/-! ## The rooms -/

end

end Board

theorem toList_roomName (stem testId : String) (n : Nat) : (roomName stem testId n).toList =
    (stem.toList ++ '-' :: testId.toList) ++ '-' :: Nat.toDigits 10 n := by
  simp [roomName, Nat.toList_repr]

/-- The digits of a room's name are what comes behind its last dash. -/
theorem takeWhile_roomName (stem testId : String) (n : Nat) :
    ((roomName stem testId n).toList.reverse.takeWhile (· ≠ '-')).reverse = Nat.toDigits 10 n := by
  have hall : ∀ c ∈ (Nat.toDigits 10 n).reverse, decide (c ≠ '-') = true := by
    intro c hc
    have hdigit := Nat.isDigit_of_mem_toDigits (by decide) (by decide) (List.mem_reverse.1 hc)
    refine decide_eq_true ?_
    rintro rfl
    simp at hdigit
  rw [toList_roomName, List.reverse_append, List.reverse_cons, List.append_assoc,
    List.takeWhile_append_of_pos hall]
  simp

/-- The number of an attempt can be read off its room. -/
theorem roomName_inj {stem testId testId' : String} {n m : Nat}
    (h : roomName stem testId n = roomName stem testId' m) : n = m := by
  have hdigits : Nat.toDigits 10 n = Nat.toDigits 10 m := by
    rw [← takeWhile_roomName stem testId n, h, takeWhile_roomName]
  rw [← Nat.ofDigitChars_ten_toDigits (n := n), hdigits, Nat.ofDigitChars_ten_toDigits]

theorem utf8ByteSize_repr_of_lt {n : Nat} (h : n < 10) : n.repr.utf8ByteSize = 1 := by
  interval_cases n <;> decide

/-- A number of so many digits takes so many bytes. -/
theorem utf8ByteSize_repr_le {n k : Nat} (h : n < 10 ^ (k + 1)) :
    n.repr.utf8ByteSize ≤ k + 1 := by
  induction k generalizing n with
  | zero => exact Nat.le_of_eq (utf8ByteSize_repr_of_lt (by simpa using h))
  | succ k ih =>
    rcases Nat.lt_or_ge n 10 with hlt | hge
    · rw [utf8ByteSize_repr_of_lt hlt]
      omega
    · have hdiv : n / 10 < 10 ^ (k + 1) := by
        rw [Nat.div_lt_iff_lt_mul (by decide), ← Nat.pow_succ]
        exact h
      rw [Nat.repr_eq_repr_append_repr hge, String.utf8ByteSize_append,
        utf8ByteSize_repr_of_lt (Nat.mod_lt n (by decide))]
      exact Nat.succ_le_succ (ih hdiv)

theorem names_valid : ∀ s ∈ ["conf", "wasip3"] ++ tests,
    s.utf8ByteSize ≤ 26 ∧ s.toList.all Signaling.roomChar = true := by
  decide +kernel

/-- The signaling server takes the rooms of the adapters. -/
theorem roomName_valid {stem testId : String} {n : Nat} (hstem : stem ∈ ["conf", "wasip3"])
    (htest : testId ∈ tests) (hn : n < 2 ^ 64) :
    Signaling.validRoom (roomName stem testId n) = true := by
  obtain ⟨hsize, hchars⟩ := names_valid stem (List.mem_append_left _ hstem)
  obtain ⟨hsize', hchars'⟩ := names_valid testId (List.mem_append_right _ htest)
  have hdigits : (toString n).utf8ByteSize ≤ 20 :=
    utf8ByteSize_repr_le (k := 19) (Nat.lt_trans hn (by decide))
  have hdigit : ∀ c ∈ Nat.toDigits 10 n, Signaling.roomChar c = true := by
    intro c hc
    have hc := Nat.isDigit_of_mem_toDigits (by decide) (by decide) hc
    simp [Signaling.roomChar, Char.isAlphanum, hc]
  have hdash : ("-").utf8ByteSize = 1 := by decide
  simp only [Signaling.validRoom, Bool.and_eq_true, decide_eq_true_eq]
  refine ⟨⟨?_, ?_⟩, ?_⟩
  · intro hempty
    have hlist := congrArg String.toList hempty
    rw [toList_roomName] at hlist
    simp at hlist
  · simp only [roomName, String.utf8ByteSize_append, hdash]
    omega
  · rw [toList_roomName]
    simp only [List.all_append, List.all_cons, hchars, hchars', Bool.true_and, Bool.and_eq_true]
    exact ⟨by decide, by decide, List.all_eq_true.2 hdigit⟩

namespace Board

/-- The instances of different attempts are run in different rooms. -/
def RoomsApart (b : Board) (stem base : String) : Prop :=
  ∀ i j t t' a a', b.At i t a → b.At j t' a' → i ≠ j →
    ∀ c ∈ configs base (roomName stem t a.room) t,
      ∀ c' ∈ configs base (roomName stem t' a'.room) t', c.room ≠ c'.room

/-- No instance of an attempt shares its room with one of another. -/
theorem Inv.rooms_apart {b : Board} {tests : List String} (h : b.Inv tests)
    (stem base : String) : b.RoomsApart stem base := by
  intro i j t t' a a' ha ha' hij c hc c' hc' hroom
  obtain ⟨role, -, rfl⟩ := List.mem_map.1 hc
  obtain ⟨role', -, rfl⟩ := List.mem_map.1 hc'
  exact hij (h.apart i j t t' a a' ha ha' (roomName_inj hroom))

end Board

end WebrtcDatachannels.Adapter
