import Mathlib.Data.List.Basic
import Mathlib.Tactic.Common

/-!
# Registry, manifests and adapter reports

`conformance/runner/src/registry.rs`, `manifest.rs` and `results.rs`: what the conformance runner
reads, and the policy that a manifest declares.
-/

namespace WebrtcDatachannels.Runner

/-- One registered conformance test. Source: `TestEntry`. -/
structure TestEntry where
  id : String
  tags : List String

/-- Every registered conformance test, in declaration order. Source: `Registry`. -/
structure Registry where
  test : List TestEntry

/-- The raw status vocabulary adapters emit. Source: `RawStatus`. -/
inductive RawStatus where
  | pass
  | fail
  | skip
deriving DecidableEq, Repr

/-- One raw per-test outcome as reported by an adapter. Source: `RawResult`. -/
structure RawResult where
  testId : String
  status : RawStatus
  detail : Option String

/-- One target running in one environment. Source: `AdapterReport`. -/
structure AdapterReport where
  target : String
  environment : String
  results : List RawResult

/-- The final status after the runner applies manifest policy. Source: `Status`. -/
inductive Status where
  | pass
  | fail
  | skipUnsupported
  | expectedFail
  | unexpectedPass
  | missing
deriving DecidableEq, Repr

/-- Whether this final status should cause a nonzero runner exit. Source: `Status::is_failure`. -/
def Status.isFailure : Status → Bool
  | .fail | .unexpectedPass => true
  | _ => false

/-- An unsupported tag plus a reason. Source: `Unsupported`. -/
structure Unsupported where
  tag : String
  reason : String
  environments : Option (List String)

/-- A test id plus a tracking reference. Source: `ExpectedFail`. -/
structure ExpectedFail where
  test : String
  tracking : String
  environments : Option (List String)

/-- One target's manifest: its id plus its policy entries. Source: `Manifest`. -/
structure Manifest where
  id : String
  unsupported : List Unsupported
  expectedFails : List ExpectedFail

/-- An entry's optional `environments` scope covers `environment`. Source: `scope_applies`. -/
def scopeApplies (environments : Option (List String)) (environment : String) : Bool :=
  match environments with
  | none => true
  | some envs => envs.any (· == environment)

/-- `Iterator::max_by_key` with a `bool` key: the last of the elements with the greatest key. -/
def maxByKey {α : Type} (key : α → Bool) (l : List α) : Option α :=
  l.foldl (fun best x =>
    match best with
    | none => some x
    | some b => if key b && !key x then some b else some x) none

namespace Manifest

/-- The `unsupported` entry that applies to a test with these tags in this environment. Source:
`Manifest::is_unsupported`. -/
def isUnsupported (m : Manifest) (tags : List String) (environment : String) :
    Option Unsupported :=
  maxByKey (·.environments.isSome)
    ((m.unsupported.filter fun u => scopeApplies u.environments environment).filter
      fun u => tags.any (· == u.tag))

/-- The `expected-fail` entry that applies to a test id in this environment. Source:
`Manifest::expected_fail`. -/
def expectedFail (m : Manifest) (testId environment : String) : Option ExpectedFail :=
  maxByKey (·.environments.isSome)
    ((m.expectedFails.filter fun e => scopeApplies e.environments environment).filter
      fun e => e.test == testId)

end Manifest

/-! ## What the policy says -/

/-- A scope covers an environment when it is absent or lists it. -/
def Covers (environments : Option (List String)) (environment : String) : Prop :=
  ∀ envs, environments = some envs → environment ∈ envs

theorem scopeApplies_iff (environments : Option (List String)) (environment : String) :
    scopeApplies environments environment = true ↔ Covers environments environment := by
  cases environments with
  | none => exact ⟨fun _ => nofun, fun _ => rfl⟩
  | some envs => simp [scopeApplies, Covers]

theorem maxByKey_concat {α : Type} (key : α → Bool) (l : List α) (x : α) :
    ∃ y, maxByKey key (l ++ [x]) = some y := by
  simp only [maxByKey, List.foldl_append, List.foldl_cons, List.foldl_nil]
  split
  · exact ⟨_, rfl⟩
  · split <;> exact ⟨_, rfl⟩

/-- A list has a greatest element exactly when it has one at all. -/
theorem maxByKey_isSome {α : Type} (key : α → Bool) (l : List α) :
    (maxByKey key l).isSome = true ↔ ∃ x, x ∈ l := by
  rcases List.eq_nil_or_concat l with rfl | ⟨l, x, rfl⟩
  · simp [maxByKey]
  · rw [List.concat_eq_append]
    obtain ⟨y, hy⟩ := maxByKey_concat key l x
    exact ⟨fun _ => ⟨x, by simp⟩, fun _ => by rw [hy]; rfl⟩

namespace Manifest

/-- The target declares a tag of the test unsupported in the environment. -/
def DeclaresUnsupported (m : Manifest) (tags : List String) (environment : String) : Prop :=
  ∃ u ∈ m.unsupported, Covers u.environments environment ∧ u.tag ∈ tags

/-- The target declares the test expected to fail in the environment. -/
def DeclaresExpectedFail (m : Manifest) (testId environment : String) : Prop :=
  ∃ e ∈ m.expectedFails, Covers e.environments environment ∧ e.test = testId

theorem isUnsupported_isSome (m : Manifest) (tags : List String) (environment : String) :
    (m.isUnsupported tags environment).isSome = true ↔
      m.DeclaresUnsupported tags environment := by
  rw [isUnsupported, maxByKey_isSome]
  simp only [List.mem_filter, scopeApplies_iff, List.any_eq_true, beq_iff_eq]
  constructor
  · rintro ⟨u, ⟨hu, hs⟩, tag, htag, rfl⟩
    exact ⟨u, hu, hs, htag⟩
  · rintro ⟨u, hu, hs, htag⟩
    exact ⟨u, ⟨hu, hs⟩, u.tag, htag, rfl⟩

theorem expectedFail_isSome (m : Manifest) (testId environment : String) :
    (m.expectedFail testId environment).isSome = true ↔
      m.DeclaresExpectedFail testId environment := by
  rw [expectedFail, maxByKey_isSome]
  simp only [List.mem_filter, scopeApplies_iff, beq_iff_eq]
  constructor
  · rintro ⟨e, ⟨he, hs⟩, ht⟩
    exact ⟨e, he, hs, ht⟩
  · rintro ⟨e, he, hs, ht⟩
    exact ⟨e, ⟨he, hs⟩, ht⟩

end Manifest

end WebrtcDatachannels.Runner
