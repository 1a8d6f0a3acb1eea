import WebrtcDatachannels.Adapter.Corpus
import WebrtcDatachannels.Adapter.Driver
import WebrtcDatachannels.Runner.Load
import WebrtcDatachannels.Runner.Matrix

/-!
# The gate over the corpus runs

The reports that the corpus runners write are what the conformance runner classifies. A corpus has
one row for each of its tests, so none of its results is replaced by another in the matrix, and the
gate fails exactly when some attempt has gone wrong: a test that is supported and not expected to
fail has failed in it, or one that is expected to fail has passed.
-/

namespace WebrtcDatachannels.Adapter

open Runner

/-- A corpus that has been run: its report, the tests it was run for, and what has happened to their
attempts. -/
structure Ran where
  report : AdapterReport
  tests : List String
  happened : Nat → Event → Prop
  nodup : tests.Nodup
  tells : Tells tests happened report.results

theorem tests_nodup : tests.Nodup := by decide +kernel

theorem twoPeerTests_nodup : twoPeerTests.Nodup := by decide +kernel

theorem select_nodup {tests : List String} (h : tests.Nodup) (only : List String) :
    (select tests only).Nodup :=
  h.filter _

section
variable {tests only : List String} {jobs n : Nat}

/-- A native adapter whose `run_corpus` has returned. Source: `main`. -/
def Ran.native (target environment : String) (htests : tests.Nodup) {ls : List Corpus.Label}
    {s : Corpus} (h : Runs.run (Corpus.step jobs) (Corpus.init tests only n) ls = some s)
    (hd : s.Done) : Ran where
  report := { target := target, environment := environment, results := s.results }
  tests := select tests only
  happened i e := .event i e ∈ ls
  nodup := select_nodup htests only
  tells := Corpus.tells_of_done h hd

/-- A jco runner whose `runCorpus` has returned. Source: `main` of `run-node.mjs`. -/
def Ran.jco (target environment : String) (htests : tests.Nodup) {ls : List Driver.Corpus.Label}
    {s : Driver.Corpus}
    (h : Runs.run (Driver.Corpus.step jobs) (Driver.Corpus.init tests only n) ls = some s)
    (hd : s.Done jobs) : Ran where
  report :=
    { target := target, environment := environment, results := s.results.filterMap id }
  tests := select tests only
  happened i e := .event i e ∈ ls
  nodup := select_nodup htests only
  tells := by
    obtain ⟨rows, hrows, htells⟩ := Driver.Corpus.tells_of_done h hd
    rw [hrows, List.filterMap_map]
    simpa using htells

end

/-- Some attempt of a declared target at a registered test, whose tags the target does not declare
unsupported, has gone wrong: it has failed and is not expected to, or has passed and is. -/
def WentWrong (registry : Registry) (manifests : List Manifest) (runs : List Ran) : Prop :=
  ∃ m ∈ manifests, ∃ e ∈ registry.test, ∃ r ∈ runs, r.report.target = m.id ∧
    ¬ m.DeclaresUnsupported e.tags r.report.environment ∧
    ∃ i, r.tests[i]? = some e.id ∧
      (FailedIn r.happened i e.id ∧ ¬ m.DeclaresExpectedFail e.id r.report.environment ∨
        PassedIn r.happened i e.id ∧ m.DeclaresExpectedFail e.id r.report.environment)

section
variable {registry : Registry} {manifests : List Manifest} {runs : List Ran}

/-- The row of a test that a corpus was run for. -/
theorem Ran.row_of_test (r : Ran) {i : Nat} {t : String} (h : r.tests[i]? = some t) :
    ∃ x, r.report.results[i]? = some x ∧ x.testId = t := by
  rw [← r.tells.1, List.getElem?_map] at h
  obtain ⟨x, hx, hid⟩ := Option.map_eq_some_iff.1 h
  exact ⟨x, hx, hid⟩

/-- A corpus has one row for each of its tests. -/
theorem Ran.row_unique (r : Ran) {x y : RawResult} (hx : x ∈ r.report.results)
    (hy : y ∈ r.report.results) (h : x.testId = y.testId) : x = y :=
  List.inj_on_of_nodup_map (f := RawResult.testId) (by rw [r.tells.1]; exact r.nodup) hx hy h

/-- No result of the reports is replaced by another in the matrix. -/
theorem lastTells (hrows : (runs.map fun r => (r.report.target, r.report.environment)).Nodup) :
    LastTells registry manifests (runs.map (·.report)) := by
  intro m _ e _ environment _ hbad
  obtain ⟨x, hx, hbad⟩ := hbad
  refine ⟨x, ?_, hbad⟩
  obtain ⟨l, y, hl⟩ := List.eq_nil_or_concat (resultsOf m.id environment e.id
    (runs.map (·.report))) |>.resolve_left (List.ne_nil_of_mem hx)
  have hy : y ∈ resultsOf m.id environment e.id (runs.map (·.report)) := by simp [hl]
  obtain ⟨⟨p, hp, ht, he, hxr⟩, hid⟩ := mem_resultsOf.1 hx
  obtain ⟨⟨p', hp', ht', he', hyr⟩, hid'⟩ := mem_resultsOf.1 hy
  obtain ⟨r, hr, rfl⟩ := List.mem_map.1 hp
  obtain ⟨r', hr', rfl⟩ := List.mem_map.1 hp'
  obtain rfl : r = r' := by
    refine List.inj_on_of_nodup_map hrows hr hr' ?_
    rw [ht, he, ht', he']
  obtain rfl : x = y := r.row_unique hxr hyr (hid.trans hid'.symm)
  simp [hl]

/-- The bad results of the reports are those of the attempts that have gone wrong. -/
theorem badResult_iff_wentWrong :
    (∃ row test, BadResult registry manifests (runs.map (·.report)) row test) ↔
      WentWrong registry manifests runs := by
  constructor
  · rintro ⟨row, test, m, hm, hid, e, he, rfl, hun, p, hp, ht, henv, x, hx, htest, hbad⟩
    obtain ⟨r, hr, rfl⟩ := List.mem_map.1 hp
    obtain ⟨i, hi⟩ := List.mem_iff_getElem?.1 hx
    obtain ⟨hpass, hfail⟩ := r.tells.2 i x hi
    rw [htest] at hpass hfail
    refine ⟨m, hm, e, he, r, hr, ht.trans hid.symm, by rwa [henv], i, ?_, ?_⟩
    · rw [← r.tells.1, List.getElem?_map, hi, Option.map_some, htest]
    · rw [henv, ← hpass, ← hfail, ← htest]
      exact hbad
  · rintro ⟨m, hm, e, he, r, hr, ht, hun, i, hi, hwrong⟩
    obtain ⟨x, hx, htest⟩ := r.row_of_test hi
    obtain ⟨hpass, hfail⟩ := r.tells.2 i x hx
    rw [htest] at hpass hfail
    refine ⟨⟨m.id, r.report.environment⟩, e.id, m, hm, rfl, e, he, rfl, hun, r.report,
      List.mem_map_of_mem hr, ht, rfl, x, List.mem_of_getElem? hx, htest, ?_⟩
    rw [← hpass, ← hfail, ← htest] at hwrong
    exact hwrong

/-- **The conformance gate is about the attempts.** For a registry and a manifest file that pass
their checks, and when each target is run in an environment once, the runner that aggregates the
reports fails exactly when some attempt has gone wrong. -/
theorem gate_iff_wentWrong {file : ManifestFile} (hreg : registry.validate = .ok ())
    (hman : Manifest.parseAll file = .ok manifests)
    (hrows : (runs.map fun r => (r.report.target, r.report.environment)).Nodup) :
    (Matrix.classify registry manifests (runs.map (·.report))).hasFailures = true ↔
      WentWrong registry manifests runs := by
  have hids := ((Registry.validate_eq_ok registry).1 hreg).2
  have htargets := Manifest.parseAll_targets hman
  rw [hasFailures_iff, ← badResult_iff_wentWrong]
  constructor
  · rintro ⟨row, test, h⟩
    exact ⟨row, test, badResult_of_failing hids htargets h⟩
  · rintro ⟨row, test, h⟩
    exact ⟨row, test, failing_of_badResult hids htargets (lastTells hrows) h⟩

/-- One attempt, for which the hang guard fires. -/
theorem gate_iff_wentWrong_of_timeout : ∃ r : Ran, r.tests = ["ordering"] ∧
    (Matrix.classify ⟨[⟨"ordering", ["data-channel"]⟩]⟩ [⟨"wasmtime", [], []⟩]
      ([r].map (·.report))).hasFailures = true := by
  have h : Runs.run (Corpus.step 4) (Corpus.init ["ordering"] [] 0)
      [.pull, .start 0, .event 0 .timeout, .yield] = some _ := rfl
  have hman : Manifest.parseAll ((∅ : ManifestFile).insert "wasmtime" ⟨[], []⟩) =
      .ok [⟨"wasmtime", [], []⟩] := rfl
  refine ⟨Ran.native "wasmtime" "loopback" (by decide) h rfl, rfl, ?_⟩
  refine (gate_iff_wentWrong (by decide) hman (by simp)).2 ?_
  refine ⟨_, List.mem_singleton_self _, _, List.mem_singleton_self _, _, List.mem_singleton_self _,
    rfl, ?_, 0, rfl, .inl ⟨.inl ?_, ?_⟩⟩
  · simp [Manifest.DeclaresUnsupported]
  · simp [Ran.native]
  · simp [Manifest.DeclaresExpectedFail]

end

end WebrtcDatachannels.Adapter
