import Std.Data.TreeMap
import WebrtcDatachannels.Runner.Manifest

/-!
# Checks on what the runner reads

The structural checks of `conformance/runner/src/registry.rs` and `manifest.rs` on a parsed registry
and on a parsed manifest file. A registry that passes has one entry for each id
(`Registry.validate_eq_ok`), and the manifests of a file have one for each target, none of whose
entries is without effect (`Manifest.parseAll_targets`, `Manifest.parseAll_scopes`).
-/

namespace WebrtcDatachannels.Runner

/-! ## The registry -/

/-- Why a registry is rejected. -/
inductive RegistryError where
  | emptyId
  | duplicateId (id : String)
deriving DecidableEq, Repr

namespace Registry

/-- One turn of the loop of `validate`, with the ids seen before. -/
def check (seen : List String) (entry : TestEntry) : Except RegistryError (List String) :=
  if entry.id = "" then .error .emptyId
  else if entry.id ∈ seen then .error (.duplicateId entry.id)
  else .ok (entry.id :: seen)

/-- Source: `Registry::validate`. -/
def validate (r : Registry) : Except RegistryError Unit :=
  (r.test.foldlM check []).map fun _ => ()

theorem check_eq_ok {seen seen' : List String} {entry : TestEntry} :
    check seen entry = .ok seen' ↔
      (entry.id ≠ "" ∧ entry.id ∉ seen) ∧ seen' = entry.id :: seen := by
  unfold check
  split
  · next h => simp [h]
  · next h =>
    split
    · next h' => simp [h']
    · next h' => simp [h, h', eq_comm]

/-- The loop goes through exactly when every id is new. -/
theorem foldlM_check (l : List TestEntry) (seen : List String) :
    (∃ seen', l.foldlM check seen = .ok seen') ↔
      (∀ e ∈ l, e.id ≠ "" ∧ e.id ∉ seen) ∧ (l.map (·.id)).Nodup := by
  induction l generalizing seen with
  | nil => simp [pure, Except.pure]
  | cons e l ih =>
    have hbind : (∃ seen', (e :: l).foldlM check seen = .ok seen') ↔
        (e.id ≠ "" ∧ e.id ∉ seen) ∧ ∃ seen', l.foldlM check (e.id :: seen) = .ok seen' := by
      rw [List.foldlM_cons]
      cases hc : check seen e with
      | error x =>
        have hno : ¬ (e.id ≠ "" ∧ e.id ∉ seen) := fun h => by
          rw [check_eq_ok.2 ⟨h, rfl⟩] at hc
          cases hc
        simp only [hno, false_and, iff_false]
        rintro ⟨seen', h⟩
        cases h
      | ok seen₁ =>
        obtain ⟨h, rfl⟩ := check_eq_ok.1 hc
        exact ⟨fun hl => ⟨h, hl⟩, fun hl => hl.2⟩
    rw [hbind, ih, List.forall_mem_cons]
    simp only [List.mem_cons, not_or, List.map_cons, List.nodup_cons, List.mem_map, not_exists,
      not_and]
    constructor
    · rintro ⟨hx, hall, hnd⟩
      exact ⟨⟨hx, fun y hy => ⟨(hall y hy).1, (hall y hy).2.2⟩⟩,
        fun y hy => (hall y hy).2.1, hnd⟩
    · rintro ⟨⟨hx, hall⟩, hne, hnd⟩
      exact ⟨hx, fun y hy => ⟨(hall y hy).1, hne y hy, (hall y hy).2⟩, hnd⟩

/-- A registry passes when its ids are not empty and no two of them are the same. -/
theorem validate_eq_ok (r : Registry) :
    r.validate = .ok () ↔ (∀ e ∈ r.test, e.id ≠ "") ∧ (r.test.map (·.id)).Nodup := by
  have hmap : r.validate = .ok () ↔ ∃ seen', r.test.foldlM check [] = .ok seen' := by
    unfold validate
    cases r.test.foldlM check [] <;> simp [Except.map]
  rw [hmap, foldlM_check]
  simp

end Registry

/-! ## The manifests -/

/-- The body of one target table. Source: `TargetEntry`. -/
structure TargetEntry where
  unsupported : List Unsupported
  expectedFail : List ExpectedFail

/-- The parsed manifest file, in id order. Source: `ManifestFile`. -/
abbrev ManifestFile := Std.TreeMap String TargetEntry

/-- Why a manifest is rejected: the entry with an empty list of environments. -/
inductive ManifestError where
  | unsupported (tag : String)
  | expectedFail (test : String)
deriving DecidableEq, Repr

namespace Manifest

/-- Source: `Manifest::validate`. -/
def validate (m : Manifest) : Except ManifestError Unit :=
  match m.unsupported.find? (·.environments == some []) with
  | some u => .error (.unsupported u.tag)
  | none =>
    match m.expectedFails.find? (·.environments == some []) with
    | some e => .error (.expectedFail e.test)
    | none => .ok ()

/-- The manifests of the parsed file, or the target whose manifest is rejected. Source:
`Manifest::parse_all`. -/
def parseAll (file : ManifestFile) : Except (String × ManifestError) (List Manifest) :=
  let manifests := file.toList.map fun e =>
    { id := e.1, unsupported := e.2.unsupported, expectedFails := e.2.expectedFail : Manifest }
  match manifests.findSome? fun m =>
      match m.validate with
      | .error x => some (m.id, x)
      | .ok () => none with
  | some x => .error x
  | none => .ok manifests

theorem validate_eq_ok (m : Manifest) : m.validate = .ok () ↔
    (∀ u ∈ m.unsupported, u.environments ≠ some []) ∧
      ∀ e ∈ m.expectedFails, e.environments ≠ some [] := by
  unfold validate
  split
  · next u hu =>
    have hmem := List.mem_of_find?_eq_some hu
    have hnil : u.environments = some [] := by simpa using List.find?_some hu
    simp only [reduceCtorEq, ne_eq, false_iff, not_and]
    exact fun h => absurd hnil (h u hmem)
  · next hu =>
    have hall : ∀ u ∈ m.unsupported, u.environments ≠ some [] := by
      simpa using List.find?_eq_none.1 hu
    split
    · next e he =>
      have hmem := List.mem_of_find?_eq_some he
      have hnil : e.environments = some [] := by simpa using List.find?_some he
      simp only [reduceCtorEq, ne_eq, false_iff, not_and]
      exact fun _ h => absurd hnil (h e hmem)
    · next he =>
      have hall' : ∀ e ∈ m.expectedFails, e.environments ≠ some [] := by
        simpa using List.find?_eq_none.1 he
      exact iff_of_true rfl ⟨hall, hall'⟩

section
variable {file : ManifestFile} {manifests : List Manifest}

theorem parseAll_eq_ok (h : parseAll file = .ok manifests) :
    manifests.map (·.id) = file.toList.map (·.1) ∧ ∀ m ∈ manifests, m.validate = .ok () := by
  unfold parseAll at h
  dsimp only at h
  split at h
  · cases h
  · next hnone =>
    cases h
    refine ⟨by simp [Function.comp_def], fun m hm => ?_⟩
    have hm := List.findSome?_eq_none_iff.1 hnone m hm
    cases hv : m.validate with
    | error x => rw [hv] at hm; cases hm
    | ok u => rfl

/-- The manifests of a file are for different targets. -/
theorem parseAll_targets (h : parseAll file = .ok manifests) : (manifests.map (·.id)).Nodup := by
  rw [(parseAll_eq_ok h).1]
  refine List.pairwise_map.2 (Std.TreeMap.distinct_keys_toList.imp fun hne heq => ?_)
  exact hne (Std.LawfulEqCmp.compare_eq_iff_eq.2 heq)

/-- Every entry of a manifest of a file is about some environment. -/
theorem parseAll_scopes (h : parseAll file = .ok manifests) {m : Manifest} (hm : m ∈ manifests) :
    (∀ u ∈ m.unsupported, ∃ environment, Covers u.environments environment) ∧
      ∀ e ∈ m.expectedFails, ∃ environment, Covers e.environments environment := by
  have hcovers : ∀ o : Option (List String), o ≠ some [] → ∃ environment, Covers o environment := by
    intro o ho
    match o with
    | none => exact ⟨"", fun envs henvs => by cases henvs⟩
    | some [] => exact absurd rfl ho
    | some (x :: l) =>
      refine ⟨x, fun envs henvs => ?_⟩
      cases henvs
      exact List.mem_cons_self
  obtain ⟨hu, he⟩ := (validate_eq_ok m).1 ((parseAll_eq_ok h).2 m hm)
  exact ⟨fun u hmem => hcovers _ (hu u hmem), fun e hmem => hcovers _ (he e hmem)⟩

end

end Manifest

end WebrtcDatachannels.Runner
