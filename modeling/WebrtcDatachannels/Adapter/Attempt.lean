import WebrtcDatachannels.Lib.Entries
import WebrtcDatachannels.Lib.Runs
import WebrtcDatachannels.Runner.Manifest

/-!
# One attempt at a conformance test

`conformance/adapters/common/src/lib.rs` and `conformance/adapters/jco/driver.js`. A test is run in
one attempt, by one guest instance or by two that share a room, and the hang guard ends an attempt
that takes too long. The native adapters wait for both instances and drop those that run when the
guard fires; the jco driver races a promise, which an instance that throws settles at once and whose
instances go on when the guard has fired. What the row of an attempt tells is the same for both
(`Attempt.Inv.row_pass`, `Attempt.Inv.row_fail`): a test passes when each of its instances has and
the guard has not fired.
-/

namespace WebrtcDatachannels.Adapter

open Runner

/-! ## Outcomes -/

/-- The outcome of one guest instance. Source: `TestOutcome`. -/
inductive TestOutcome where
  | pass
  | fail (detail : String)
  | skipped (reason : String)
deriving DecidableEq, Repr

/-- Fold two per-instance outcomes into one. Source: `fold_two`. -/
def foldTwo (offerer answerer : TestOutcome) : TestOutcome :=
  match offerer, answerer with
  | .fail a, .fail b => .fail ("offerer: " ++ a ++ "; answerer: " ++ b)
  | .fail a, _ => .fail ("offerer: " ++ a)
  | _, .fail b => .fail ("answerer: " ++ b)
  | .skipped a, _ => .skipped a
  | _, .skipped b => .skipped b
  | .pass, .pass => .pass

/-- Source: `outcome_to_raw`. -/
def outcomeToRaw (testId : String) (outcome : TestOutcome) : RawResult :=
  match outcome with
  | .pass => { testId := testId, status := .pass, detail := none }
  | .skipped reason => { testId := testId, status := .skip, detail := some reason }
  | .fail detail => { testId := testId, status := .fail, detail := some detail }

theorem foldTwo_eq_pass {o a : TestOutcome} : foldTwo o a = .pass ↔ o = .pass ∧ a = .pass := by
  cases o <;> cases a <;> simp [foldTwo]

theorem foldTwo_eq_fail {o a : TestOutcome} :
    (∃ d, foldTwo o a = .fail d) ↔ (∃ d, o = .fail d) ∨ ∃ d, a = .fail d := by
  cases o <;> cases a <;> simp [foldTwo]

/-! ## Plans -/

/-- The registry of test ids. Source: `TESTS`. -/
def tests : List String :=
  ["label-round-trip", "binary-message", "text-message", "message-boundaries",
    "zero-length-message", "large-message", "ordering", "payload-integrity",
    "concurrent-send-receive", "send-via-stream", "receive-via-stream", "receive-via-stream-once",
    "post-close-send", "receive-buffer-overflow", "max-retransmits-accepted",
    "error-invalid-signaling", "error-closed", "error-timed-out", "peer-offer-answer",
    "peer-create-data-channel", "peer-local-ice-candidates", "peer-add-ice-candidate",
    "peer-wait-connected", "peer-close-releases", "peer-invalid-sdp", "interop-handshake"]

/-- The two-peer behavioral subset. Source: `TWO_PEER_TESTS`. -/
def twoPeerTests : List String :=
  ["label-round-trip", "binary-message", "text-message", "message-boundaries",
    "zero-length-message", "large-message", "ordering", "payload-integrity",
    "concurrent-send-receive", "max-retransmits-accepted", "interop-handshake"]

/-- How a test is orchestrated across guest instances. Source: `Plan`. -/
inductive Plan where
  | inProcess
  | skip
  | twoPeer
deriving DecidableEq, Repr

/-- The orchestration plan for a test id. Source: `plan_for`. -/
def planFor (testId : String) : Plan :=
  match testId with
  | "peer-offer-answer" | "peer-create-data-channel" | "peer-local-ice-candidates"
  | "peer-add-ice-candidate" | "peer-wait-connected" | "peer-close-releases" | "peer-invalid-sdp"
  | "error-invalid-signaling" | "error-closed" | "error-timed-out" | "post-close-send"
  | "receive-buffer-overflow" | "send-via-stream" | "receive-via-stream"
  | "receive-via-stream-once" => .inProcess
  | _ => .twoPeer

/-- The message count and message size a test runs with. Source: `params_for`. -/
def paramsFor (testId : String) : Nat × Nat :=
  match testId with
  | "large-message" => (1, 16384)
  | "receive-buffer-overflow" => (64, 16384)
  | "message-boundaries" | "ordering" | "payload-integrity" | "concurrent-send-receive"
  | "interop-handshake" => (16, 512)
  | _ => (4, 256)

/-- The role of a guest instance. Source: `Role`. -/
inductive Role where
  | offerer
  | answerer
  | both
deriving DecidableEq, Repr

/-- What a guest instance is run with. Source: `TestConfig`. -/
structure TestConfig where
  role : Role
  signalingServer : String
  room : String
  messageCount : Nat
  messageSize : Nat
  trickle : Bool

/-- Source: `make_config`. -/
def makeConfig (role : Role) (base room : String) (count size : Nat) : TestConfig :=
  { role := role, signalingServer := base, room := room, messageCount := count,
    messageSize := size, trickle := true }

/-- The roles of the instances of a plan. Source: the `match` in `run_test`. -/
def Plan.roles : Plan → List Role
  | .twoPeer => [.offerer, .answerer]
  | .inProcess => [.both]
  | .skip => [.offerer]

/-- The configurations of the instances of a test. -/
def configs (base room testId : String) : List TestConfig :=
  (planFor testId).roles.map fun role =>
    makeConfig role base room (paramsFor testId).1 (paramsFor testId).2

/-! ## Instances -/

/-- What an instance ends with: the outcome that the guest reports, or an error of the adapter, as
its text. -/
abbrev InstanceResult := Except String TestOutcome

/-- The instances of an attempt, with what those that have ended did. -/
inductive Instances where
  | alone (role : Role) (result : Option InstanceResult)
  | pair (offerer answerer : Option InstanceResult)

/-- The instances that a plan starts. -/
def Plan.instances : Plan → Instances
  | .twoPeer => .pair none none
  | .inProcess => .alone .both none
  | .skip => .alone .offerer none

namespace Instances

/-- What the instance of a role has ended with. -/
def get : Instances → Role → Option InstanceResult
  | .alone r result, role => if role = r then result else none
  | .pair offerer _, .offerer => offerer
  | .pair _ answerer, .answerer => answerer
  | .pair _ _, .both => none

/-- The roles of the instances. -/
def roles : Instances → List Role
  | .alone r _ => [r]
  | .pair _ _ => [.offerer, .answerer]

/-- The instance of a role ends, if it runs. -/
def put : Instances → Role → InstanceResult → Option Instances
  | .alone r none, role, x => if role = r then some (.alone r (some x)) else none
  | .pair none answerer, .offerer, x => some (.pair (some x) answerer)
  | .pair offerer none, .answerer, x => some (.pair offerer (some x))
  | _, _, _ => none

/-- Every instance has passed. -/
def Passed (s : Instances) : Prop := ∀ role ∈ s.roles, s.get role = some (.ok .pass)

/-- Some instance has failed, or ended in an error of the adapter. -/
def Failed (s : Instances) : Prop :=
  ∃ role ∈ s.roles, ∃ text,
    s.get role = some (.error text) ∨ s.get role = some (.ok (.fail text))

variable {s s' : Instances} {role : Role} {x : InstanceResult}

/-- What `put` does. -/
theorem put_spec (h : s.put role x = some s') :
    role ∈ s.roles ∧ s.get role = none ∧ s'.roles = s.roles ∧
      ∀ r, s'.get r = if r = role then some x else s.get r := by
  cases s with
  | alone r result =>
    cases result with
    | some y => simp [put] at h
    | none =>
      simp only [put, Option.ite_none_right_eq_some, Option.some.injEq] at h
      obtain ⟨rfl, rfl⟩ := h
      refine ⟨by simp [roles], by simp [get], rfl, fun r => ?_⟩
      by_cases hr : r = role <;> simp [get, hr]
  | pair o a =>
    cases role with
    | both => cases o <;> cases a <;> simp [put] at h
    | offerer =>
      cases o with
      | some y => simp [put] at h
      | none =>
        simp only [put, Option.some.injEq] at h
        subst h
        exact ⟨by simp [roles], rfl, rfl, fun r => by cases r <;> rfl⟩
    | answerer =>
      cases a with
      | some y => cases o <;> simp [put] at h
      | none =>
        have h : some (pair o (some x)) = some s' := by cases o <;> exact h
        cases h
        exact ⟨by simp [roles], rfl, rfl, fun r => by cases r <;> rfl⟩

@[simp] theorem roles_instances (p : Plan) : p.instances.roles = p.roles := by cases p <;> rfl

theorem get_instances (p : Plan) (role : Role) : p.instances.get role = none := by
  cases p <;> cases role <;> rfl

end Instances

/-! ## Attempts -/

/-- How an attempt has ended: with the outcome of its instances, with an error, or by the hang
guard. Source: what `tokio::time::timeout` returns in `run_test`. -/
inductive End where
  | outcome (o : TestOutcome)
  | error (text : String)
  | timedOut
deriving DecidableEq, Repr

/-- An attempt: the number in its room's name, its instances, and how it has ended. -/
structure Attempt where
  room : Nat
  instances : Instances
  ended : Option End

/-- What happens to an attempt: an instance ends, or the hang guard fires. -/
inductive Event where
  | instance (role : Role) (result : InstanceResult)
  | timeout

namespace Attempt

/-- An attempt begins. -/
def fresh (testId : String) (room : Nat) : Attempt :=
  { room := room, instances := (planFor testId).instances, ended := none }

/-- What the attempt of the native adapters returns once all its instances have ended. Source: the
closure in `run_test`, `fold_two(offerer?, answerer?)`. -/
def joined : Instances → Option End
  | .alone _ (some (.ok o)) => some (.outcome o)
  | .alone _ (some (.error text)) => some (.error text)
  | .pair (some (.ok o)) (some (.ok a)) => some (.outcome (foldTwo o a))
  | .pair (some (.ok _)) (some (.error text)) => some (.error text)
  | .pair (some (.error text)) (some _) => some (.error text)
  | _ => none

/-- What an event does to an attempt of the native adapters, which is dropped with its instances
when the guard fires. Source: `run_test`. -/
def step (a : Attempt) : Event → Option Attempt
  | .instance role x =>
    match a.ended with
    | some _ => none
    | none => (a.instances.put role x).map fun s => { a with instances := s, ended := joined s }
  | .timeout =>
    match a.ended with
    | some _ => none
    | none => some { a with ended := some .timedOut }

/-- An attempt's end is that of its instances. -/
def Inv (a : Attempt) : Prop :=
  match a.ended with
  | none | some .timedOut => True
  | some (.error text) => ∃ role ∈ a.instances.roles, a.instances.get role = some (.error text)
  | some (.outcome o) =>
    (∀ role ∈ a.instances.roles, ∃ x, a.instances.get role = some (.ok x)) ∧
      (o = .pass ↔ a.instances.Passed) ∧ ((∃ d, o = .fail d) ↔ a.instances.Failed)

end Attempt

/-- The outcome that an attempt is recorded with. Source: `run_test`. -/
def End.toOutcome : End → TestOutcome
  | .outcome o => o
  | .error text => .fail ("adapter error: " ++ text)
  | .timedOut => .fail "attempt timed-out"

/-- The raw result of a test whose attempt has ended. Source: `run_test`. -/
def row (testId : String) (e : End) : RawResult := outcomeToRaw testId e.toOutcome

/-! ## The jco driver -/

namespace Driver

/-- Source: `foldTwo`. -/
def foldTwo (offerer answerer : TestOutcome) : TestOutcome :=
  match offerer with
  | .fail o =>
    match answerer with
    | .fail a => .fail ("offerer: " ++ o ++ "; answerer: " ++ a)
    | _ => .fail ("offerer: " ++ o)
  | _ =>
    match answerer with
    | .fail a => .fail ("answerer: " ++ a)
    | _ =>
      match offerer with
      | .skipped _ => offerer
      | _ =>
        match answerer with
        | .skipped _ => answerer
        | _ => .pass

/-- Source: `IN_PROCESS`. -/
def inProcess : List String :=
  ["peer-offer-answer", "peer-create-data-channel", "peer-local-ice-candidates",
    "peer-add-ice-candidate", "peer-wait-connected", "peer-close-releases", "peer-invalid-sdp",
    "error-invalid-signaling", "error-closed", "error-timed-out", "post-close-send",
    "receive-buffer-overflow", "send-via-stream", "receive-via-stream", "receive-via-stream-once"]

/-- Source: `SKIP`. -/
def skip : List String := []

/-- Source: `planFor`. -/
def planFor (testId : String) : Plan :=
  if testId ∈ inProcess then .inProcess else if testId ∈ skip then .skip else .twoPeer

/-- What settles the promise of an attempt that runs, when an instance has ended with `x`: an error
at once, and else the last of the instances. Source: `Promise.all` in `runTest`. -/
def raced (s : Instances) : InstanceResult → Option End
  | .error text => some (.error text)
  | .ok _ =>
    match s with
    | .alone _ (some (.ok o)) => some (.outcome o)
    | .pair (some (.ok o)) (some (.ok a)) => some (.outcome (foldTwo o a))
    | _ => none

/-- What an event does to an attempt of the driver. Its instances go on when it has ended, and no
longer count. Source: `runTest`, `withTimeout`. -/
def step (a : Attempt) : Event → Option Attempt
  | .instance role x =>
    (a.instances.put role x).map fun s => { a with instances := s, ended := a.ended <|> raced s x }
  | .timeout =>
    match a.ended with
    | some _ => none
    | none => some { a with ended := some .timedOut }

/-- The result row of a test whose attempt has ended. Source: `runTest`. -/
def row (testId : String) : End → RawResult
  | .error text => { testId := testId, status := .fail, detail := some text }
  | .timedOut => { testId := testId, status := .fail, detail := some "attempt timed-out" }
  | .outcome .pass => { testId := testId, status := .pass, detail := none }
  | .outcome (.skipped reason) => { testId := testId, status := .skip, detail := some reason }
  | .outcome (.fail detail) => { testId := testId, status := .fail, detail := some detail }

theorem foldTwo_eq : foldTwo = Adapter.foldTwo := by
  funext o a
  cases o <;> cases a <;> rfl

theorem planFor_eq : planFor = Adapter.planFor := by
  funext t
  unfold Adapter.planFor
  split <;> simp_all [planFor, inProcess, skip]

end Driver

/-! ## What the end of an attempt tells -/

section
variable {a a' : Attempt} {e : Event} {role : Role} {x : InstanceResult} {s : Instances} {t : End}

/-- A step of an attempt of the native adapters. -/
theorem Attempt.step_iff : a.step e = some a' ↔ a.ended = none ∧
    ((∃ role x s, e = .instance role x ∧ a.instances.put role x = some s ∧
        a' = { a with instances := s, ended := Attempt.joined s }) ∨
      e = .timeout ∧ a' = { a with ended := some .timedOut }) := by
  cases e <;> cases h : a.ended <;> simp [Attempt.step, h, @eq_comm _ a']

/-- A step of an attempt of the driver. -/
theorem Driver.step_iff : Driver.step a e = some a' ↔
    (∃ role x s, e = .instance role x ∧ a.instances.put role x = some s ∧
        a' = { a with instances := s, ended := a.ended <|> Driver.raced s x }) ∨
      (a.ended = none ∧ e = .timeout ∧ a' = { a with ended := some .timedOut }) := by
  cases e <;> cases h : a.ended <;> simp [Driver.step, h, @eq_comm _ a']

theorem Attempt.inv_none (h : a.ended = none) : a.Inv := by
  simp only [Attempt.Inv, h]

theorem Attempt.inv_timedOut (h : a.ended = some .timedOut) : a.Inv := by
  simp only [Attempt.Inv, h]

/-- All instances of an attempt have ended with an outcome. -/
theorem Attempt.inv_outcome {o : TestOutcome} (h : a.ended = some (.outcome o)) :
    a.Inv ↔ (∀ role ∈ a.instances.roles, ∃ x, a.instances.get role = some (.ok x)) ∧
      (o = .pass ↔ a.instances.Passed) ∧ ((∃ d, o = .fail d) ↔ a.instances.Failed) := by
  simp only [Attempt.Inv, h]

theorem Attempt.inv_error {text : String} (h : a.ended = some (.error text)) :
    a.Inv ↔ ∃ role ∈ a.instances.roles, a.instances.get role = some (.error text) := by
  simp only [Attempt.Inv, h]

/-- The end that both instances, or the only one, lead to. -/
theorem Attempt.inv_joined (room : Nat) (s : Instances) :
    Attempt.Inv { room := room, instances := s, ended := Attempt.joined s } := by
  match s with
  | .alone r none | .pair none _ | .pair (some (.ok _)) none | .pair (some (.error _)) none =>
    exact trivial
  | .alone r (some (.error text)) => exact ⟨r, by simp [Instances.roles], by simp [Instances.get]⟩
  | .alone r (some (.ok o)) =>
    refine ⟨?_, ?_, ?_⟩ <;>
      simp [Instances.roles, Instances.get, Instances.Passed, Instances.Failed]
  | .pair (some (.ok o)) (some (.ok b)) =>
    refine ⟨?_, ?_, ?_⟩
    · simp [Instances.roles, Instances.get]
    · simp [foldTwo_eq_pass, Instances.roles, Instances.get, Instances.Passed]
    · simp [foldTwo_eq_fail, Instances.roles, Instances.get, Instances.Failed]
  | .pair (some (.ok _)) (some (.error text)) =>
    exact ⟨.answerer, by simp [Instances.roles], rfl⟩
  | .pair (some (.error text)) (some _) => exact ⟨.offerer, by simp [Instances.roles], rfl⟩

theorem Attempt.joined_ne (s : Instances) : Attempt.joined s ≠ some .timedOut := by
  unfold Attempt.joined
  split <;> simp

/-- What is raced for is what is joined, as long as no instance ends in an error. -/
theorem Driver.raced_ok {o : TestOutcome} (h : Driver.raced s (.ok o) = some t) :
    Attempt.joined s = some t := by
  match s with
  | .alone _ none | .alone _ (some (.error _)) | .pair none _ | .pair (some (.error _)) _
  | .pair (some (.ok _)) none | .pair (some (.ok _)) (some (.error _)) => simp [Driver.raced] at h
  | .alone _ (some (.ok _)) => exact h
  | .pair (some (.ok _)) (some (.ok _)) => rw [← h, Attempt.joined, Driver.raced, Driver.foldTwo_eq]

/-- What both kinds of attempt do with an event. -/
structure Keeps (step : Attempt → Event → Option Attempt) : Prop where
  inv : ∀ {a e a'}, step a e = some a' → a.Inv → a'.Inv
  room : ∀ {a e a'}, step a e = some a' → a'.room = a.room
  roles : ∀ {a e a'}, step a e = some a' → a'.instances.roles = a.instances.roles
  get : ∀ {a e a' role x}, step a e = some a' →
    (a'.instances.get role = some x ↔ a.instances.get role = some x ∨ e = .instance role x)
  timedOut : ∀ {a e a'}, step a e = some a' →
    (a'.ended = some .timedOut ↔ a.ended = some .timedOut ∨ e = .timeout)
  ended : ∀ {a e a' t}, step a e = some a' → a.ended = some t → a'.ended = some t
  guard : ∀ {a}, a.ended = none →
    step a .timeout = some { a with ended := some .timedOut }

/-- The results of an attempt after one more. -/
theorem Instances.get_put (h : s.put role x = some s') {r : Role} {y : InstanceResult} :
    s'.get r = some y ↔ s.get r = some y ∨ Event.instance role x = .instance r y := by
  obtain ⟨-, hnone, -, hget⟩ := Instances.put_spec h
  rw [hget]
  by_cases hr : r = role
  · subst hr
    simp [hnone]
  · simp [hr, Ne.symm hr]

theorem Attempt.keeps : Keeps Attempt.step where
  inv h _ := by
    obtain ⟨-, ⟨role, x, s, -, -, rfl⟩ | ⟨-, rfl⟩⟩ := Attempt.step_iff.1 h
    · exact Attempt.inv_joined _ s
    · exact Attempt.inv_timedOut rfl
  room h := by
    obtain ⟨-, ⟨role, x, s, -, -, rfl⟩ | ⟨-, rfl⟩⟩ := Attempt.step_iff.1 h <;> rfl
  roles h := by
    obtain ⟨-, ⟨role, x, s, -, hput, rfl⟩ | ⟨-, rfl⟩⟩ := Attempt.step_iff.1 h
    · exact (Instances.put_spec hput).2.2.1
    · rfl
  get h := by
    obtain ⟨-, ⟨role, x, s, rfl, hput, rfl⟩ | ⟨rfl, rfl⟩⟩ := Attempt.step_iff.1 h
    · exact Instances.get_put hput
    · simp
  timedOut h := by
    obtain ⟨hnone, ⟨role, x, s, rfl, hput, rfl⟩ | ⟨rfl, rfl⟩⟩ := Attempt.step_iff.1 h
    · simpa [hnone] using Attempt.joined_ne s
    · simp
  ended h ht := by
    rw [(Attempt.step_iff.1 h).1] at ht
    cases ht
  guard h := Attempt.step_iff.2 ⟨h, .inr ⟨rfl, rfl⟩⟩

theorem Driver.raced_ne (s : Instances) (x : InstanceResult) :
    Driver.raced s x ≠ some .timedOut := by
  cases x with
  | error text => simp [Driver.raced]
  | ok o => exact fun h => Attempt.joined_ne s (Driver.raced_ok h)

/-- An instance that ends after its attempt leaves the attempt's end that of its instances. -/
theorem Attempt.Inv.put (h : a.Inv) (ht : a.ended = some t)
    (hput : a.instances.put role x = some s) : Attempt.Inv { a with instances := s } := by
  obtain ⟨hrole, hnone, hroles, hget⟩ := Instances.put_spec hput
  cases t with
  | timedOut => exact Attempt.inv_timedOut ht
  | error text =>
    obtain ⟨r, hr, hx⟩ := (Attempt.inv_error ht).1 h
    refine (Attempt.inv_error (a := { a with instances := s }) ht).2
      ⟨r, by rw [hroles]; exact hr, ?_⟩
    exact (Instances.get_put hput).2 (.inl hx)
  | outcome o =>
    -- all instances had ended
    obtain ⟨y, hy⟩ := ((Attempt.inv_outcome ht).1 h).1 role hrole
    rw [hnone] at hy
    cases hy

theorem Driver.keeps : Keeps Driver.step where
  inv {a e a'} h hinv := by
    obtain ⟨role, x, s, rfl, hput, rfl⟩ | ⟨-, rfl, rfl⟩ := Driver.step_iff.1 h
    · cases ht : a.ended with
      | some t => simpa [ht] using hinv.put ht hput
      | none =>
        simp only [Option.none_or, Option.orElse_eq_orElse, Option.orElse_eq_or]
        cases hr : Driver.raced s x with
        | none => exact Attempt.inv_none rfl
        | some t =>
          cases x with
          | ok o => exact Driver.raced_ok hr ▸ Attempt.inv_joined a.room s
          | error text =>
            cases hr
            obtain ⟨hrole, -, hroles, hget⟩ := Instances.put_spec hput
            refine (Attempt.inv_error rfl).2 ⟨role, by rw [hroles]; exact hrole, ?_⟩
            rw [hget, if_pos rfl]
    · exact Attempt.inv_timedOut rfl
  room h := by
    obtain ⟨role, x, s, rfl, hput, rfl⟩ | ⟨-, rfl, rfl⟩ := Driver.step_iff.1 h <;> rfl
  roles h := by
    obtain ⟨role, x, s, rfl, hput, rfl⟩ | ⟨-, rfl, rfl⟩ := Driver.step_iff.1 h
    · exact (Instances.put_spec hput).2.2.1
    · rfl
  get h := by
    obtain ⟨role, x, s, rfl, hput, rfl⟩ | ⟨-, rfl, rfl⟩ := Driver.step_iff.1 h
    · exact Instances.get_put hput
    · simp
  timedOut {a e a'} h := by
    obtain ⟨role, x, s, rfl, hput, rfl⟩ | ⟨-, rfl, rfl⟩ := Driver.step_iff.1 h
    · cases ht : a.ended with
      | some t => simp
      | none => simpa using Driver.raced_ne s x
    · simp
  ended {a e a' t} h ht := by
    obtain ⟨role, x, s, rfl, hput, rfl⟩ | ⟨hnone, rfl, rfl⟩ := Driver.step_iff.1 h
    · simp [ht]
    · rw [hnone] at ht
      cases ht
  guard h := Driver.step_iff.2 (.inr ⟨h, rfl, rfl⟩)

/-- An outcome's row passes, or fails, as the outcome does. -/
theorem outcomeToRaw_status (testId : String) (o : TestOutcome) :
    ((outcomeToRaw testId o).status = .pass ↔ o = .pass) ∧
      ((outcomeToRaw testId o).status = .fail ↔ ∃ d, o = .fail d) := by
  cases o <;> simp [outcomeToRaw]

/-- The rows of the two kinds of adapter differ in the text of an adapter's error only. -/
theorem Driver.row_eq (testId : String) (ht : ∀ text, t ≠ .error text) :
    Driver.row testId t = Adapter.row testId t := by
  cases t with
  | outcome o => cases o <;> rfl
  | error text => exact absurd rfl (ht text)
  | timedOut => rfl

theorem Driver.row_status (testId : String) (t : End) :
    (Driver.row testId t).testId = testId ∧
      (Driver.row testId t).status = (Adapter.row testId t).status := by
  cases t with
  | outcome o => cases o <;> exact ⟨rfl, rfl⟩
  | error text => exact ⟨rfl, rfl⟩
  | timedOut => exact ⟨rfl, rfl⟩

theorem row_testId (testId : String) (t : End) : (row testId t).testId = testId := by
  unfold row outcomeToRaw
  split <;> rfl

/-- A row passes when every instance has and the hang guard has not ended the attempt. -/
theorem Attempt.Inv.row_pass (h : a.Inv) (ht : a.ended = some t) (testId : String) :
    (row testId t).status = .pass ↔ a.ended ≠ some .timedOut ∧ a.instances.Passed := by
  rw [row, (outcomeToRaw_status _ _).1, ht]
  cases t with
  | timedOut => simp [End.toOutcome]
  | error text =>
    obtain ⟨r, hr, hx⟩ := (Attempt.inv_error ht).1 h
    simp only [End.toOutcome, reduceCtorEq, false_iff, not_and]
    intro _ hp
    have := hp r hr
    rw [hx] at this
    cases this
  | outcome o => simpa [End.toOutcome] using ((Attempt.inv_outcome ht).1 h).2.1

/-- A row fails when the hang guard has ended the attempt, or an instance has failed. -/
theorem Attempt.Inv.row_fail (h : a.Inv) (ht : a.ended = some t) (testId : String) :
    (row testId t).status = .fail ↔ a.ended = some .timedOut ∨ a.instances.Failed := by
  rw [row, (outcomeToRaw_status _ _).2, ht]
  cases t with
  | timedOut => simp [End.toOutcome]
  | error text =>
    obtain ⟨r, hr, hx⟩ := (Attempt.inv_error ht).1 h
    simp only [End.toOutcome, TestOutcome.fail.injEq, exists_eq', true_iff]
    exact .inr ⟨r, hr, text, .inl hx⟩
  | outcome o => simpa [End.toOutcome] using ((Attempt.inv_outcome ht).1 h).2.2

end

end WebrtcDatachannels.Adapter
