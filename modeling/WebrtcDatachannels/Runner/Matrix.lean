import Mathlib.Data.List.Nodup
import WebrtcDatachannels.Lib.Table
import WebrtcDatachannels.Runner.Manifest

/-!
# The conformance matrix

`conformance/runner/src/plan.rs`. `Matrix::classify` groups the results of each declared target by
environment and test in two nested maps, where a later result replaces an earlier one of the same
test, and applies the target's policy to what is left. The gate is right about a run exactly when no
replaced result is the only bad one of its group (`LastTells`).
-/

namespace WebrtcDatachannels.Runner

/-- One classified cell of the matrix. Source: `Cell`. -/
structure Cell where
  status : Status
  detail : Option String

/-- A target running in a particular environment. Source: `Row`. -/
structure Row where
  target : String
  environment : String
deriving DecidableEq

/-- The key of a cell: target, environment and test. -/
abbrev Key := String × String × String

/-- The order of the keys, that of tuples. -/
def Key.cmp : Key → Key → Ordering :=
  compareLex (compareOn (·.1)) (compareLex (compareOn (·.2.1)) (compareOn (·.2.2)))

/-- Source: `Row::key`. -/
def Row.key (row : Row) (test : String) : Key := (row.target, row.environment, test)

/-- The raw outcomes of one environment, by test. -/
abbrev Raw := Std.TreeMap String (RawStatus × Option String)

/-- The classified matrix. Source: `Matrix`. -/
structure Matrix where
  rows : List Row
  tests : List String
  cells : Std.TreeMap Key Cell Key.cmp

/-- Source: `classify_one`. -/
def classifyOne (manifest : Manifest) (environment testId : String) (tags : List String)
    (raw : Option (RawStatus × Option String)) : Cell :=
  match manifest.isUnsupported tags environment with
  | some unsupported => ⟨.skipUnsupported, some unsupported.reason⟩
  | none =>
    match raw with
    | none => ⟨.missing, none⟩
    | some (.skip, detail) => ⟨.skipUnsupported, detail⟩
    | some (.pass, detail) =>
      match manifest.expectedFail testId environment with
      | some xf =>
        ⟨.unexpectedPass, some ("expected-fail passed (tracking " ++ xf.tracking ++
          "); update the manifest")⟩
      | none => ⟨.pass, detail⟩
    | some (.fail, detail) =>
      if (manifest.expectedFail testId environment).isSome then ⟨.expectedFail, detail⟩
      else ⟨.fail, detail⟩

/-- Insert the results of a report. -/
def Raw.add (raw : Raw) (results : List RawResult) : Raw :=
  results.foldl (fun env result => env.insert result.testId (result.status, result.detail)) raw

/-- A target's raw results, grouped by the environment they ran in. Source: the first loop of
`Matrix::classify`. -/
def byEnv (target : String) (reports : List AdapterReport) : Std.TreeMap String Raw :=
  (reports.filter fun r => r.target == target).foldl
    (fun byEnv report =>
      byEnv.insert report.environment ((byEnv.getD report.environment ∅).add report.results)) ∅

/-- The environments of a target with their raw results; a target with no report is planned in the
empty environment. -/
def planned (target : String) (reports : List AdapterReport) : Std.TreeMap String Raw :=
  if (byEnv target reports).isEmpty then (∅ : Std.TreeMap String Raw).insert "" ∅
  else byEnv target reports

namespace Matrix

/-- The cells of one row, in registry order. -/
def rowCells (registry : Registry) (manifest : Manifest) (row : Row) (raw : Raw) :
    List (Key × Cell) :=
  registry.test.map fun entry =>
    (row.key entry.id, classifyOne manifest row.environment entry.id entry.tags raw[entry.id]?)

/-- The rows of a manifest with their raw results, in the order of the environments. -/
def manifestRows (reports : List AdapterReport) (manifest : Manifest) : List (Row × Raw) :=
  (planned manifest.id reports).toList.map fun e => (⟨manifest.id, e.1⟩, e.2)

/-- Classify every (target, environment, test) triple. Source: `Matrix::classify`. -/
def classify (registry : Registry) (manifests : List Manifest) (reports : List AdapterReport) :
    Matrix :=
  { rows := manifests.flatMap fun m => (manifestRows reports m).map Prod.fst
    tests := registry.test.map (·.id)
    cells := Table.fill ∅ (manifests.flatMap fun m =>
      (manifestRows reports m).flatMap fun p => rowCells registry m p.1 p.2) }

/-- True if any classified cell is a failure. Source: `Matrix::has_failures`. -/
def hasFailures (m : Matrix) : Bool := m.cells.toList.any fun e => e.2.status.isFailure

/-- Every failing cell, in row order then registry test order. Source: `Matrix::failures`. -/
def failures (m : Matrix) : List (Row × String × Cell) :=
  m.rows.flatMap fun row =>
    m.tests.filterMap fun test =>
      match m.cells[row.key test]? with
      | some cell => if cell.status.isFailure then some (row, test, cell) else none
      | none => none

end Matrix

/-! ## What the gate is about -/

/-- A raw result that fails the run: a failure that is not expected, or a pass of a test that is
expected to fail. -/
def Manifest.IsBad (m : Manifest) (environment : String) (x : RawResult) : Prop :=
  x.status = .fail ∧ ¬ m.DeclaresExpectedFail x.testId environment ∨
    x.status = .pass ∧ m.DeclaresExpectedFail x.testId environment

/-- The results of a target in an environment, in the order of the reports. -/
def group (target environment : String) (reports : List AdapterReport) : List RawResult :=
  ((reports.filter fun r => r.target == target).filter
    fun r => r.environment == environment).flatMap (·.results)

/-- Those of one test. -/
def resultsOf (target environment test : String) (reports : List AdapterReport) :
    List RawResult :=
  (group target environment reports).filter fun x => x.testId = test

/-- Some report of a declared target in the row's environment has a result for the registered test,
whose tags the target does not declare unsupported there, that fails the run. -/
def BadResult (registry : Registry) (manifests : List Manifest) (reports : List AdapterReport)
    (row : Row) (test : String) : Prop :=
  ∃ m ∈ manifests, m.id = row.target ∧ ∃ e ∈ registry.test, e.id = test ∧
    ¬ m.DeclaresUnsupported e.tags row.environment ∧
    ∃ r ∈ reports, r.target = row.target ∧ r.environment = row.environment ∧
      ∃ x ∈ r.results, x.testId = test ∧ m.IsBad row.environment x

/-- The last result of every test that is run for a target in an environment fails the run when any
of them does. -/
def LastTells (registry : Registry) (manifests : List Manifest) (reports : List AdapterReport) :
    Prop :=
  ∀ m ∈ manifests, ∀ e ∈ registry.test, ∀ environment,
    ¬ m.DeclaresUnsupported e.tags environment →
    (∃ x ∈ resultsOf m.id environment e.id reports, m.IsBad environment x) →
    ∃ x, (resultsOf m.id environment e.id reports).getLast? = some x ∧ m.IsBad environment x

theorem mem_resultsOf {target environment test : String} {reports : List AdapterReport}
    {x : RawResult} : x ∈ resultsOf target environment test reports ↔
      (∃ r ∈ reports, r.target = target ∧ r.environment = environment ∧ x ∈ r.results) ∧
        x.testId = test := by
  simp only [resultsOf, group, List.mem_filter, List.mem_flatMap, beq_iff_eq, decide_eq_true_eq]
  constructor
  · rintro ⟨⟨r, ⟨⟨hr, ht⟩, he⟩, hx⟩, hid⟩
    exact ⟨⟨r, hr, ht, he, hx⟩, hid⟩
  · rintro ⟨⟨r, hr, ht, he, hx⟩, hid⟩
    exact ⟨⟨r, ⟨⟨hr, ht⟩, he⟩, hx⟩, hid⟩

/-! ## The nested maps -/

instance : Std.TransCmp Key.cmp :=
  inferInstanceAs (Std.TransCmp (compareLex _ (compareLex _ _)))

instance : Std.LawfulEqCmp Key.cmp where
  compare_self := Std.ReflCmp.compare_self
  eq_of_compare {a b} h := by
    simp only [Key.cmp, compareLex_eq_eq, compareOn] at h
    obtain ⟨h1, h2, h3⟩ := h
    exact Prod.ext (Std.LawfulEqCmp.eq_of_compare h1)
      (Prod.ext (Std.LawfulEqCmp.eq_of_compare h2) (Std.LawfulEqCmp.eq_of_compare h3))

section
variable {reports : List AdapterReport} {target environment test : String}

theorem Raw.add_eq_fill (raw : Raw) (results : List RawResult) :
    raw.add results = Table.fill raw (results.map fun x => (x.testId, x.status, x.detail)) := by
  rw [Raw.add, Table.fill, List.foldl_map]

theorem Raw.add_append (raw : Raw) (l l' : List RawResult) :
    raw.add (l ++ l') = (raw.add l).add l' := by
  simp [Raw.add]

/-- A test's entry is its last result. -/
theorem getElem?_add (results : List RawResult) (test : String) :
    (Raw.add ∅ results)[test]? =
      ((results.filter fun x => x.testId = test).getLast?).map fun x => (x.status, x.detail) := by
  rw [Raw.add_eq_fill, Table.getElem?_fill, Std.TreeMap.getElem?_emptyc, Option.or_none,
    List.filter_map, List.getLast?_map, Option.map_map]
  rfl

/-- The loop over the reports of a target, from a map that is partly filled. -/
theorem foldl_byEnv (rs : List AdapterReport) (t : Std.TreeMap String Raw) (environment : String) :
    (rs.foldl (fun byEnv report => byEnv.insert report.environment
        ((byEnv.getD report.environment ∅).add report.results)) t)[environment]? =
      if ∃ r ∈ rs, r.environment = environment then
        some (((t[environment]?).getD ∅).add
          ((rs.filter fun r => r.environment == environment).flatMap (·.results)))
      else t[environment]? := by
  induction rs generalizing t with
  | nil => simp
  | cons r rs ih =>
    rw [List.foldl_cons, ih]
    by_cases h : r.environment = environment
    · subst h
      simp only [Std.TreeMap.getElem?_insert_self, Option.getD_some, List.mem_cons,
        exists_eq_or_imp, true_or, if_true, List.filter_cons, beq_self_eq_true, List.flatMap_cons,
        Raw.add_append, Std.TreeMap.getD_eq_getD_getElem?]
      split
      · rfl
      · next hno =>
        have hnil : rs.filter (fun x => x.environment == r.environment) = [] := by
          refine List.filter_eq_nil_iff.2 fun x hx hxe => hno ⟨x, hx, by simpa using hxe⟩
        rw [hnil]
        rfl
    · rw [Table.getElem?_insert_ne h]
      simp [h]

theorem getElem?_byEnv (target environment : String) (reports : List AdapterReport) :
    (byEnv target reports)[environment]? =
      if ∃ r ∈ reports, r.target = target ∧ r.environment = environment then
        some (Raw.add ∅ (group target environment reports))
      else none := by
  rw [byEnv, foldl_byEnv, Std.TreeMap.getElem?_emptyc]
  simp only [List.mem_filter, beq_iff_eq, and_assoc, Option.getD_none]
  rfl

/-- A planned environment has the raw results of its reports. -/
theorem planned_some {raw : Raw}
    (h : (planned target reports)[environment]? = some raw) :
    raw = Raw.add ∅ (group target environment reports) := by
  unfold planned at h
  split at h
  · next hempty =>
    -- no report ran the target
    have hnil : group target environment reports = [] := by
      refine List.flatMap_eq_nil_iff.2 fun r hr => ?_
      obtain ⟨hr, he⟩ := List.mem_filter.1 hr
      obtain ⟨hr, ht⟩ := List.mem_filter.1 hr
      have hnone := getElem?_byEnv target environment reports
      rw [if_pos ⟨r, hr, by simpa using ht, by simpa using he⟩,
        Std.TreeMap.getElem?_of_isEmpty hempty] at hnone
      cases hnone
    rw [hnil]
    by_cases hz : "" = environment
    · subst hz
      rw [Std.TreeMap.getElem?_insert_self] at h
      cases h
      rfl
    · rw [Table.getElem?_insert_ne hz, Std.TreeMap.getElem?_emptyc] at h
      cases h
  · rw [getElem?_byEnv] at h
    split at h
    · cases h; rfl
    · cases h

/-- An environment that a report ran is planned. -/
theorem planned_of_report {r : AdapterReport} (hr : r ∈ reports) :
    ∃ raw, (planned r.target reports)[r.environment]? = some raw := by
  have hsome : ∃ raw, (byEnv r.target reports)[r.environment]? = some raw := by
    rw [getElem?_byEnv, if_pos ⟨r, hr, rfl, rfl⟩]
    exact ⟨_, rfl⟩
  unfold planned
  split
  · next hempty =>
    obtain ⟨raw, hraw⟩ := hsome
    rw [Std.TreeMap.getElem?_of_isEmpty hempty] at hraw
    cases hraw
  · exact hsome

end

/-! ## The cells -/

/-- A cell fails when the test is run and its last result fails the run. -/
theorem classifyOne_fails (m : Manifest) (environment : String) (e : TestEntry)
    (l : List RawResult) (hl : ∀ x ∈ l, x.testId = e.id) :
    (classifyOne m environment e.id e.tags
        (l.getLast?.map fun x => (x.status, x.detail))).status.isFailure = true ↔
      ¬ m.DeclaresUnsupported e.tags environment ∧
        ∃ x, l.getLast? = some x ∧ m.IsBad environment x := by
  rw [← m.isUnsupported_isSome]
  unfold classifyOne
  cases hu : m.isUnsupported e.tags environment with
  | some u => simp [Status.isFailure]
  | none =>
    cases hlast : l.getLast? with
    | none => simp [Status.isFailure]
    | some x =>
      have hid : x.testId = e.id := hl x (List.mem_of_getLast? hlast)
      simp only [Option.map_some, Option.isSome_none, Bool.false_eq_true, not_false_eq_true,
        true_and, Option.some.injEq, exists_eq_left', Manifest.IsBad, hid,
        ← m.expectedFail_isSome]
      cases hs : x.status with
      | skip => simp [Status.isFailure]
      | pass => cases m.expectedFail e.id environment <;> simp [Status.isFailure]
      | fail => cases m.expectedFail e.id environment <;> simp [Status.isFailure]

section
variable {registry : Registry} {manifests : List Manifest} {reports : List AdapterReport}

/-- The declared target, planned environment and registered test of a cell. -/
theorem mem_cells {k : Key} {c : Cell} :
    (k, c) ∈ manifests.flatMap (fun m => (Matrix.manifestRows reports m).flatMap fun p =>
        Matrix.rowCells registry m p.1 p.2) ↔
      ∃ m ∈ manifests, ∃ environment raw, (planned m.id reports)[environment]? = some raw ∧
        ∃ e ∈ registry.test, k = (m.id, environment, e.id) ∧
          c = classifyOne m environment e.id e.tags raw[e.id]? := by
  simp only [List.mem_flatMap, Matrix.manifestRows, Matrix.rowCells, List.mem_map]
  constructor
  · rintro ⟨m, hm, p, ⟨⟨environment, raw⟩, hraw, rfl⟩, e, he, hk⟩
    cases hk
    exact ⟨m, hm, environment, raw, Std.TreeMap.mem_toList_iff_getElem?_eq_some.1 hraw, e, he,
      rfl, rfl⟩
  · rintro ⟨m, hm, environment, raw, hraw, e, he, rfl, rfl⟩
    exact ⟨m, hm, (⟨m.id, environment⟩, raw),
      ⟨(environment, raw), Std.TreeMap.mem_toList_iff_getElem?_eq_some.2 hraw, rfl⟩, e, he, rfl⟩

/-- `has_failures` looks at every failing cell of a row and a registered test. -/
theorem hasFailures_iff :
    (Matrix.classify registry manifests reports).hasFailures = true ↔
      ∃ row test c, (Matrix.classify registry manifests reports).cells[Row.key row test]? =
        some c ∧ c.status.isFailure = true := by
  simp only [Matrix.hasFailures, List.any_eq_true]
  constructor
  · rintro ⟨⟨k, c⟩, hmem, hfail⟩
    rw [Std.TreeMap.mem_toList_iff_getElem?_eq_some] at hmem
    exact ⟨⟨k.1, k.2.1⟩, k.2.2, c, hmem, hfail⟩
  · rintro ⟨row, test, c, hc, hfail⟩
    exact ⟨(row.key test, c), Std.TreeMap.mem_toList_iff_getElem?_eq_some.2 hc, hfail⟩

/-- The results of a test that is run, seen from the reports. -/
theorem badResult_iff {row : Row} {test : String} :
    BadResult registry manifests reports row test ↔
      ∃ m ∈ manifests, m.id = row.target ∧ ∃ e ∈ registry.test, e.id = test ∧
        ¬ m.DeclaresUnsupported e.tags row.environment ∧
        ∃ x ∈ resultsOf m.id row.environment e.id reports, m.IsBad row.environment x := by
  constructor
  · rintro ⟨m, hm, hid, e, he, rfl, hun, r, hr, ht, henv, x, hx, htest, hbad⟩
    exact ⟨m, hm, hid, e, he, rfl, hun, x,
      mem_resultsOf.2 ⟨⟨r, hr, ht.trans hid.symm, henv, hx⟩, htest⟩, hbad⟩
  · rintro ⟨m, hm, hid, e, he, rfl, hun, x, hx, hbad⟩
    obtain ⟨⟨r, hr, ht, henv, hx⟩, htest⟩ := mem_resultsOf.1 hx
    exact ⟨m, hm, hid, e, he, rfl, hun, r, hr, ht.trans hid, henv, x, hx, htest, hbad⟩

variable (hreg : (registry.test.map (·.id)).Nodup) (hman : (manifests.map (·.id)).Nodup)
include hreg hman

/-- With unique ids, the matrix has one cell for each declared target, planned environment and
registered test. -/
theorem getElem?_cells {k : Key} {c : Cell} :
    (Matrix.classify registry manifests reports).cells[k]? = some c ↔
      ∃ m ∈ manifests, ∃ environment raw, (planned m.id reports)[environment]? = some raw ∧
        ∃ e ∈ registry.test, k = (m.id, environment, e.id) ∧
          c = classifyOne m environment e.id e.tags raw[e.id]? := by
  rw [← mem_cells]
  refine Table.mem_fill_iff ?_
  rintro ⟨k, c⟩ h ⟨k', c'⟩ h' hk
  obtain ⟨m, hm, environment, raw, hraw, e, he, rfl, rfl⟩ := mem_cells.1 h
  obtain ⟨m', hm', environment', raw', hraw', e', he', rfl, rfl⟩ := mem_cells.1 h'
  obtain ⟨hid, henv, htest⟩ : m.id = m'.id ∧ environment = environment' ∧ e.id = e'.id := by
    simpa using hk
  obtain rfl : m = m' := List.inj_on_of_nodup_map hman hm hm' hid
  obtain rfl : e = e' := List.inj_on_of_nodup_map hreg he he' htest
  subst henv
  rw [hraw] at hraw'
  cases hraw'
  rfl

/-- A failing cell: the test is run, and its last result fails the run. -/
theorem failing_iff {row : Row} {test : String} :
    (∃ c, (Matrix.classify registry manifests reports).cells[row.key test]? = some c ∧
        c.status.isFailure = true) ↔
      ∃ m ∈ manifests, m.id = row.target ∧ ∃ e ∈ registry.test, e.id = test ∧
        ¬ m.DeclaresUnsupported e.tags row.environment ∧
        ∃ x, (resultsOf m.id row.environment e.id reports).getLast? = some x ∧
          m.IsBad row.environment x := by
  have hlast : ∀ m environment (e : TestEntry) raw,
      (planned m reports)[environment]? = some raw →
      raw[e.id]? = (resultsOf m environment e.id reports).getLast?.map
        fun x => (x.status, x.detail) := by
    intro m environment e raw hraw
    rw [planned_some hraw, getElem?_add]
    rfl
  have hids : ∀ m environment (e : TestEntry), ∀ x ∈ resultsOf m environment e.id reports,
      x.testId = e.id := fun m environment e x hx => (mem_resultsOf.1 hx).2
  constructor
  · rintro ⟨c, hc, hfail⟩
    obtain ⟨m, hm, environment, raw, hraw, e, he, hk, rfl⟩ := (getElem?_cells hreg hman).1 hc
    obtain ⟨hid, rfl, rfl⟩ : row.target = m.id ∧ row.environment = environment ∧ test = e.id := by
      simpa [Row.key] using hk
    rw [hlast m.id row.environment e raw hraw,
      classifyOne_fails m row.environment e _ (hids m.id row.environment e)] at hfail
    exact ⟨m, hm, hid.symm, e, he, rfl, hfail⟩
  · rintro ⟨m, hm, hid, e, he, rfl, hfail⟩
    obtain ⟨x, hx, -⟩ := hfail.2
    obtain ⟨⟨r, hr, ht, henv, -⟩, -⟩ := mem_resultsOf.1 (List.mem_of_getLast? hx)
    obtain ⟨raw, hraw⟩ := planned_of_report hr
    rw [ht, henv] at hraw
    refine ⟨classifyOne m row.environment e.id e.tags raw[e.id]?,
      (getElem?_cells hreg hman).2 ⟨m, hm, row.environment, raw, hraw, e, he, ?_, rfl⟩, ?_⟩
    · rw [Row.key, hid]
    · rw [hlast m.id row.environment e raw hraw,
        classifyOne_fails m row.environment e _ (hids m.id row.environment e)]
      exact hfail

/-- `failures` lists every failing cell. -/
theorem mem_failures {row : Row} {test : String} {c : Cell} :
    (row, test, c) ∈ (Matrix.classify registry manifests reports).failures ↔
      (Matrix.classify registry manifests reports).cells[row.key test]? = some c ∧
        c.status.isFailure = true := by
  simp only [Matrix.failures, List.mem_flatMap, List.mem_filterMap]
  constructor
  · rintro ⟨row', -, test', -, h⟩
    split at h
    · next cell hcell =>
      split at h
      · next hfail => cases h; exact ⟨hcell, hfail⟩
      · cases h
    · cases h
  · rintro ⟨hc, hfail⟩
    obtain ⟨m, hm, environment, raw, hraw, e, he, hk, -⟩ := (getElem?_cells hreg hman).1 hc
    obtain ⟨hid, henv, rfl⟩ : row.target = m.id ∧ row.environment = environment ∧ test = e.id := by
      simpa [Row.key] using hk
    refine ⟨row, ?_, e.id, List.mem_map_of_mem he, by rw [hc]; simp [hfail]⟩
    -- the row of a cell is the row of a planned environment
    refine List.mem_flatMap.2 ⟨m, hm, List.mem_map.2 ⟨(row, raw), ?_, rfl⟩⟩
    refine List.mem_map.2 ⟨(environment, raw),
      Std.TreeMap.mem_toList_iff_getElem?_eq_some.2 hraw, ?_⟩
    rw [← hid, ← henv]

/-- A failing cell stands for a result that fails the run: the gate reports nothing else. -/
theorem badResult_of_failing {row : Row} {test : String}
    (h : ∃ c, (Matrix.classify registry manifests reports).cells[row.key test]? = some c ∧
      c.status.isFailure = true) : BadResult registry manifests reports row test := by
  obtain ⟨m, hm, hid, e, he, htest, hun, x, hx, hbad⟩ := (failing_iff hreg hman).1 h
  exact badResult_iff.2 ⟨m, hm, hid, e, he, htest, hun, x, List.mem_of_getLast? hx, hbad⟩

/-- Where the last result tells, a result that fails the run has a failing cell. -/
theorem failing_of_badResult (hlast : LastTells registry manifests reports) {row : Row}
    {test : String} (h : BadResult registry manifests reports row test) :
    ∃ c, (Matrix.classify registry manifests reports).cells[row.key test]? = some c ∧
      c.status.isFailure = true := by
  obtain ⟨m, hm, hid, e, he, htest, hun, hbad⟩ := badResult_iff.1 h
  exact (failing_iff hreg hman).2
    ⟨m, hm, hid, e, he, htest, hun, hlast m hm e he row.environment hun hbad⟩

/-- The gate is sound and complete over the reports exactly when no bad result of a test that is run
is replaced by one that is not bad. -/
theorem gate_sound_iff :
    (((Matrix.classify registry manifests reports).hasFailures = false ↔
        ¬ ∃ row test, BadResult registry manifests reports row test) ∧
      ((Matrix.classify registry manifests reports).failures ≠ [] ↔
        (Matrix.classify registry manifests reports).hasFailures = true) ∧
      ∀ row test, BadResult registry manifests reports row test ↔
        ∃ c, (row, test, c) ∈ (Matrix.classify registry manifests reports).failures) ↔
      LastTells registry manifests reports := by
  constructor
  · rintro ⟨-, -, hnames⟩ m hm e he environment hun hbad
    have hlisted := (hnames ⟨m.id, environment⟩ e.id).1
      (badResult_iff.2 ⟨m, hm, rfl, e, he, rfl, hun, hbad⟩)
    simp only [mem_failures hreg hman] at hlisted
    obtain ⟨m', hm', hid, e', he', htest, -, hx⟩ := (failing_iff hreg hman).1 hlisted
    obtain rfl : m' = m := List.inj_on_of_nodup_map hman hm' hm hid
    obtain rfl : e' = e := List.inj_on_of_nodup_map hreg he' he htest
    exact hx
  · intro hlast
    have hcell : ∀ row test, BadResult registry manifests reports row test ↔
        ∃ c, (Matrix.classify registry manifests reports).cells[row.key test]? = some c ∧
          c.status.isFailure = true :=
      fun row test => ⟨failing_of_badResult hreg hman hlast, badResult_of_failing hreg hman⟩
    refine ⟨?_, ?_, ?_⟩
    · rw [← Bool.not_eq_true, hasFailures_iff]
      simp only [hcell]
    · rw [hasFailures_iff]
      constructor
      · intro hne
        obtain ⟨⟨row, test, c⟩, h⟩ := List.exists_mem_of_ne_nil _ hne
        exact ⟨row, test, c, (mem_failures hreg hman).1 h⟩
      · rintro ⟨row, test, c, h⟩
        exact List.ne_nil_of_mem ((mem_failures hreg hman).2 h)
    · intro row test
      rw [hcell]
      simp only [mem_failures hreg hman]

end

/-- One registered test. -/
def oneTest : Registry := ⟨[⟨"ordering", ["data-channel"]⟩]⟩

/-- One declared target, with no policy entry. -/
def oneTarget : List Manifest := [⟨"wasmtime", [], []⟩]

/-- A report of the test in the loopback environment. -/
def loopback (status : RawStatus) : AdapterReport :=
  ⟨"wasmtime", "loopback", [⟨"ordering", status, none⟩]⟩

/-- A failure that comes after a pass of the same test turns the run red. -/
theorem gate_sound_of_fail_last :
    (Matrix.classify oneTest oneTarget [loopback .pass, loopback .fail]).hasFailures = true ∧
      LastTells oneTest oneTarget [loopback .pass, loopback .fail] := by
  have hlast : LastTells oneTest oneTarget [loopback .pass, loopback .fail] := by
    rintro m hm e he environment - ⟨x, hx, -⟩
    obtain rfl := List.mem_singleton.1 hm
    obtain rfl := List.mem_singleton.1 he
    obtain ⟨⟨r, hr, -, rfl, -⟩, -⟩ := mem_resultsOf.1 hx
    have henv : r.environment = "loopback" := by
      rcases List.mem_pair.1 hr with rfl | rfl <;> rfl
    rw [henv]
    exact ⟨⟨"ordering", .fail, none⟩, by rfl, .inl ⟨rfl, by rintro ⟨e, ⟨⟩, -⟩⟩⟩
  have hsound := ((@gate_sound_iff oneTest oneTarget _ (by decide) (by decide)).2 hlast).2.1
  exact ⟨hsound.1 (by decide), hlast⟩

/-- A pass that comes after a failure of the same test hides it. -/
theorem rerun_hides_failure :
    ¬ ∀ (registry : Registry) (manifests : List Manifest) (reports : List AdapterReport),
      (registry.test.map (·.id)).Nodup → (manifests.map (·.id)).Nodup →
        ((Matrix.classify registry manifests reports).hasFailures = false ↔
          ¬ ∃ row test, BadResult registry manifests reports row test) := by
  intro h
  refine (h oneTest oneTarget [loopback .fail, loopback .pass] (by decide) (by decide)).1
    (by decide) ⟨⟨"wasmtime", "loopback"⟩, "ordering", ?_⟩
  refine ⟨_, List.mem_singleton_self _, rfl, _, List.mem_singleton_self _, rfl, ?_,
    loopback .fail, by simp, rfl, rfl, ⟨"ordering", .fail, none⟩, List.mem_singleton_self _, rfl,
    .inl ⟨rfl, ?_⟩⟩
  · rintro ⟨u, ⟨⟩, -⟩
  · rintro ⟨e, ⟨⟩, -⟩

end WebrtcDatachannels.Runner
