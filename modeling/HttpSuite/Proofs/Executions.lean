import HttpSuite.CommandLine
import HttpSuite.Proofs.Isolation
import HttpSuite.Proofs.Loading

/-!
How a run ends. A run that gets past loading executes the tests that its filter selects, each
from the globals, and its report is read off these executions: their keys in order, and those of
them that failed. A run that does not has sent nothing.
-/

namespace HttpSuite

/-- A failure before any test is executed: of a block, of a link, or of the filter. -/
def Failure.IsStatic : Failure → Prop
  | invalid .. | unknownDriver .. | unknownBlock .. | unlinkable .. | testNotFound _ => True
  | _ => False

/-- What became of a test: how it ended, and the requests that it sent. -/
@[ext]
structure Execution where
  key : String
  outcome : Except Failure Unit
  sent : List Request

def Execution.failure? (x : Execution) : Option (String × Failure) :=
  match x.outcome with
  | .ok () => none
  | .error e => some (x.key, e)

def Report.ofExecutions (executions : List Execution) : Report :=
  { executed := executions.map Execution.key
    failures := executions.filterMap Execution.failure? }

theorem Execution.failure?_eq_some_iff {x : Execution} {key : String} {e : Failure} :
    x.failure? = some (key, e) ↔ x.key = key ∧ x.outcome = .error e := by
  simp only [failure?]
  cases x.outcome <;> simp

theorem Execution.failure?_eq_none_iff {x : Execution} :
    x.failure? = none ↔ x.outcome = .ok () := by
  simp only [failure?]
  cases x.outcome <;> simp

theorem Report.mem_failures_ofExecutions {executions : List Execution} {key : String}
    {e : Failure} :
    (key, e) ∈ (ofExecutions executions).failures ↔
      ∃ x ∈ executions, x.key = key ∧ x.outcome = .error e := by
  simp [ofExecutions, Execution.failure?_eq_some_iff]

theorem Report.failures_sublist (executions : List Execution) :
    ((ofExecutions executions).failures.map Prod.fst).Sublist
      (ofExecutions executions).executed := by
  induction executions with
  | nil => exact .slnil
  | cons x more ih =>
      simp only [ofExecutions, List.filterMap_cons, List.map_cons] at ih ⊢
      cases hfailure : x.failure? with
      | none => exact .cons _ ih
      | some failure =>
          obtain ⟨hkey, _⟩ := Execution.failure?_eq_some_iff.mp hfailure
          rw [List.map_cons, ← hkey]
          exact .cons_cons _ ih

theorem Report.add_execution (executions : List Execution) (x : Execution) :
    (ofExecutions executions).add x.key x.outcome = ofExecutions (executions ++ [x]) := by
  obtain ⟨key, outcome, sent⟩ := x
  cases outcome with
  | ok _ => simp [ofExecutions, add, Execution.failure?]
  | error e => simp [ofExecutions, add, Execution.failure?]

/-- With distinct keys a failure under the key of a test is that of the test. -/
theorem Report.recorded_iff {executions : List Execution}
    (hkeys : (ofExecutions executions).executed.Nodup) {x : Execution} (hx : x ∈ executions)
    {e : Failure} : (x.key, e) ∈ (ofExecutions executions).failures ↔ x.outcome = .error e := by
  rw [mem_failures_ofExecutions]
  constructor
  · rintro ⟨y, hy, hkey, houtcome⟩
    rwa [← List.inj_on_of_nodup_map hkeys hy hx hkey]
  · intro houtcome
    exact ⟨x, hx, rfl, houtcome⟩

theorem Report.isSuccess_ofExecutions {executions : List Execution} :
    (ofExecutions executions).isSuccess = true ↔ ∀ x ∈ executions, x.outcome = .ok () := by
  simp [isSuccess, ofExecutions, Execution.failure?_eq_none_iff]

namespace Suite

/-- The tests that a filter selects. -/
def selected (suite : Suite) : Option String → List Resource
  | none => suite.tests
  | some key => ((suite.registry.get? key).filter Resource.isTest).toList

/-- A filter, if there is one, names a registered test. -/
def Matches (suite : Suite) (filter : Option String) : Prop :=
  ∀ key, filter = some key →
    ∃ test ∈ suite.registry.resources, test.isTest = true ∧ test.reference = key

/-- The execution of a test from the globals alone, without a response and in the world that earlier
tests left, and the world that it leaves. -/
def execution (suite : Suite) (transport : Transport) (clock : Clock) (test : Resource)
    (world : World) : Execution × World :=
  let env : Environment := { registry := suite.registry, transport, clock }
  let start : State := { world with bindings := suite.globals, response := none }
  let (outcome, after) := env.exec test start
  ({ key := test.reference, outcome, sent := after.sent.drop world.sent.length }, after.toWorld)

/-- Executions of tests one after the other. -/
def executions (suite : Suite) (transport : Transport) (clock : Clock) :
    List Resource → World → List Execution
  | [], _ => []
  | test :: more, world =>
    let (execution, after) := suite.execution transport clock test world
    execution :: executions suite transport clock more after

/-- The runner of a loaded suite executes a test. -/
theorem runTest_eq_execution (suite : Suite) (transport : Transport) (clock : Clock)
    (test : Resource) (world : World) :
    suite.runTest transport clock { bindings := suite.globals, response := none } test world =
      ((suite.execution transport clock test world).1.outcome,
        (suite.execution transport clock test world).2) := rfl

section Executions

variable {config : Config} {ids : Nat → String} {document : Document} {suite : Suite}
variable (transport : Transport) (clock : Clock)

theorem executions_keys (suite : Suite) (tests : List Resource) (world : World) :
    (suite.executions transport clock tests world).map Execution.key =
      tests.map Resource.reference := by
  induction tests generalizing world with
  | nil => rfl
  | cons test more ih => exact congrArg (test.reference :: ·) (ih _)

theorem runTests_cons (h : load config ids document = .ok suite) (test : Resource)
    (more : List Resource) (report : Report) (world : World) :
    suite.runTests transport clock (test :: more) report world =
      let (execution, after) := suite.execution transport clock test world
      suite.runTests transport clock more (report.add execution.key execution.outcome) after := by
  have hstart : suite.isolated = { bindings := suite.globals, response := none } := loaded_eq h
  rw [runTests, hstart, runTest_eq_execution]
  rfl

theorem runTests_report (h : load config ids document = .ok suite) (tests : List Resource)
    (earlier : List Execution) (world : World) :
    (suite.runTests transport clock tests (.ofExecutions earlier) world).1 =
      .ofExecutions (earlier ++ suite.executions transport clock tests world) := by
  -- A test finds the report and the world as the tests before it left them.
  induction tests generalizing earlier world with
  | nil => rw [runTests, executions, List.append_nil]
  | cons test more ih =>
      simp only [runTests_cons transport clock h, executions, Report.add_execution, ih,
        List.append_assoc, List.singleton_append]

theorem matches_none (suite : Suite) : suite.Matches none :=
  nofun

theorem matches_some_iff (h : load config ids document = .ok suite) {key : String} :
    suite.Matches (some key) ↔
      ∃ test, (suite.registry.get? key).filter Resource.isTest = some test := by
  simp only [Matches, Option.some.injEq, forall_eq', Option.filter_eq_some_iff]
  constructor
  · rintro ⟨test, hmem, htest, rfl⟩
    exact ⟨test, Registry.get?_of_mem (load_nodup_keys h) hmem, htest⟩
  · rintro ⟨test, hget, htest⟩
    exact ⟨test, Registry.get?_mem hget, htest, Registry.get?_reference hget⟩

/-- A run whose filter names a test, if it has one, reports the executions of its tests. -/
theorem run_of_matches (h : load config ids document = .ok suite) {filter : Option String}
    (hfilter : suite.Matches filter) (world : World) :
    (suite.run transport clock filter world).1 =
      .ok (.ofExecutions (suite.executions transport clock (suite.selected filter) world)) := by
  cases filter with
  | none => exact congrArg Except.ok (runTests_report transport clock h suite.tests [] world)
  | some key =>
      obtain ⟨test, htest⟩ := (matches_some_iff h).mp hfilter
      obtain rfl := Registry.get?_reference (Option.filter_eq_some_iff.mp htest).1
      simp only [run, selected, htest, Option.toList, executions, loaded_eq h,
        runTest_eq_execution]
      -- The report of one test is the empty one with its execution added.
      have hreport := Report.add_execution [] (suite.execution transport clock test world).1
      exact congrArg Except.ok hreport

theorem run_of_not_matches (h : load config ids document = .ok suite) {filter : Option String}
    (hfilter : ¬ suite.Matches filter) (world : World) :
    ∃ key, filter = some key ∧
      suite.run transport clock filter world = (.error (.testNotFound key), world) := by
  cases filter with
  | none => exact absurd suite.matches_none hfilter
  | some key =>
      rw [matches_some_iff h, ← Option.ne_none_iff_exists', not_not] at hfilter
      exact ⟨key, rfl, by simp only [run, hfilter]⟩

theorem selected_nodup (h : load config ids document = .ok suite) (filter : Option String) :
    ((suite.selected filter).map Resource.reference).Nodup := by
  cases filter with
  | none => exact tests_nodup h
  | some key =>
      simp only [selected]
      cases (suite.registry.get? key).filter Resource.isTest <;> simp

theorem load_error_isStatic {e : Failure} (h : load config ids document = .error e) :
    e.IsStatic := by
  rcases load_error_iff.mp h with hdefault | ⟨_, _, hrefused | ⟨_, hlink⟩⟩
  · obtain ⟨_, _, _, rfl⟩ := hdefault.exists
    trivial
  · obtain ⟨_, _, hblock⟩ := hrefused.exists
    cases hblock <;> trivial
  · obtain ⟨_, _, _, _, rfl⟩ := hlink.exists
    trivial

end Executions
end Suite

namespace Setup

variable {setup : Setup} {document : Document} {suite : Suite}

/-- The executions of a run of a loaded suite. -/
def executions (setup : Setup) (suite : Suite) : List Execution :=
  suite.executions setup.transport setup.clock (suite.selected setup.config.filter) .initial

theorem run_eq_of_load (h : Suite.load setup.config setup.ids document = .ok suite) :
    setup.run document =
      suite.run setup.transport setup.clock setup.config.filter .initial := by
  simp only [run, h]

theorem run_eq_of_load_error {e : Failure}
    (h : Suite.load setup.config setup.ids document = .error e) :
    setup.run document = (.error e, .initial) := by
  simp only [run, h]

theorem run_ok_iff {report : Report} :
    (setup.run document).1 = .ok report ↔
      ∃ suite, Suite.load setup.config setup.ids document = .ok suite ∧
        suite.Matches setup.config.filter ∧ report = .ofExecutions (setup.executions suite) := by
  cases hload : Suite.load setup.config setup.ids document with
  | error e => simp [run_eq_of_load_error hload]
  | ok suite =>
      rw [run_eq_of_load hload]
      by_cases hfilter : suite.Matches setup.config.filter
      · rw [Suite.run_of_matches _ _ hload hfilter]
        simp [hfilter, executions, eq_comm]
      · obtain ⟨key, _, hrun⟩ := Suite.run_of_not_matches setup.transport setup.clock hload
          hfilter .initial
        simp [hrun, hfilter]

/-- A run without a report has done nothing. -/
theorem run_error {e : Failure} (h : (setup.run document).1 = .error e) :
    (setup.run document).2 = .initial ∧ e.IsStatic ∧
      ((Suite.load setup.config setup.ids document = .error e) ∨
        ∃ suite, Suite.load setup.config setup.ids document = .ok suite ∧
          ¬ suite.Matches setup.config.filter) := by
  cases hload : Suite.load setup.config setup.ids document with
  | error e' =>
      rw [run_eq_of_load_error hload] at h ⊢
      cases h
      exact ⟨rfl, Suite.load_error_isStatic hload, .inl rfl⟩
  | ok suite =>
      rw [run_eq_of_load hload] at h ⊢
      by_cases hfilter : suite.Matches setup.config.filter
      · rw [Suite.run_of_matches _ _ hload hfilter] at h
        cases h
      · obtain ⟨key, _, hrun⟩ := Suite.run_of_not_matches setup.transport setup.clock hload
          hfilter .initial
        rw [hrun] at h ⊢
        cases h
        exact ⟨rfl, trivial, .inr ⟨suite, rfl, hfilter⟩⟩

theorem check_outcome (setup : Setup) (document : Document) :
    (setup.check document).1 =
      match (setup.run document).1 with
      | .error e => .error e
      | .ok report =>
        if report.isSuccess then .ok ()
        else .error (.testsFailed report.failures.length report.executed.length) := by
  simp only [check]
  obtain ⟨_ | report, world⟩ := setup.run document
  · rfl
  · by_cases hsuccess : report.isSuccess <;> simp [hsuccess]

theorem check_ok_iff :
    (setup.check document).1 = .ok () ↔
      ∃ suite, Suite.load setup.config setup.ids document = .ok suite ∧
        suite.Matches setup.config.filter ∧
        ∀ x ∈ setup.executions suite, x.outcome = .ok () := by
  rw [check_outcome]
  constructor
  · intro h
    cases hrun : (setup.run document).1 with
    | error e => simp [hrun] at h
    | ok report =>
        obtain ⟨suite, hload, hfilter, rfl⟩ := run_ok_iff.mp hrun
        have hsuccess : (Report.ofExecutions (setup.executions suite)).isSuccess = true := by
          simpa [hrun] using h
        exact ⟨suite, hload, hfilter, Report.isSuccess_ofExecutions.mp hsuccess⟩
  · rintro ⟨suite, hload, hfilter, hall⟩
    have hrun := run_ok_iff.mpr ⟨suite, hload, hfilter, rfl⟩
    simp [hrun, Report.isSuccess_ofExecutions.mpr hall]

end Setup

namespace CommandLine

theorem runSource_code_cases (setup : Setup) (source : String) :
    (runSource setup source).1.code = 0 ∨ (runSource setup source).1.code = 1 := by
  simp only [runSource]
  cases Document.parse source with
  | error e => simp
  | ok document => rcases hcheck : setup.check document with ⟨_ | _, world⟩ <;> simp [hcheck]

theorem runSource_code_eq_zero_iff {setup : Setup} {source : String} :
    (runSource setup source).1.code = 0 ↔
      ∃ document, Document.parse source = .ok document ∧ (setup.check document).1 = .ok () := by
  simp only [runSource]
  cases Document.parse source with
  | error e => simp
  | ok document => rcases hcheck : setup.check document with ⟨_ | _, world⟩ <;> simp [hcheck]

end CommandLine

theorem run_outcome (setup : Setup) :
    (∀ source,
      ((CommandLine.runSource setup source).1.code = 0 ↔
        ∃ document suite, Document.parse source = .ok document ∧
          Suite.load setup.config setup.ids document = .ok suite ∧
          suite.Matches setup.config.filter ∧
          ∀ x ∈ setup.executions suite, x.outcome = .ok ()) ∧
      ((CommandLine.runSource setup source).1.code ≠ 0 →
        (CommandLine.runSource setup source).1.code = 1)) ∧
    ∀ document,
      ((∃ e, (setup.run document).1 = .error e) ↔
        (∃ e, Suite.load setup.config setup.ids document = .error e) ∨
          ∃ suite, Suite.load setup.config setup.ids document = .ok suite ∧
            ¬ suite.Matches setup.config.filter) ∧
      (∀ e, (setup.run document).1 = .error e →
        (setup.run document).2.sent = [] ∧ e.IsStatic ∧ (setup.check document).1 = .error e) ∧
      ∀ report, (setup.run document).1 = .ok report →
        ∃ suite, Suite.load setup.config setup.ids document = .ok suite ∧
          report.executed = (setup.executions suite).map Execution.key ∧
          report.executed.Nodup ∧
          (report.failures.map Prod.fst).Sublist report.executed ∧
          (report.failures.map Prod.fst).Nodup ∧
          (∀ x ∈ setup.executions suite, ∀ e,
            (x.key, e) ∈ report.failures ↔ x.outcome = .error e) ∧
          ((setup.check document).1 = .ok () ↔ report.failures = []) ∧
          (report.failures ≠ [] → (setup.check document).1 =
            .error (.testsFailed report.failures.length report.executed.length)) := by
  refine ⟨fun source => ⟨?_, ?_⟩, fun document => ⟨?_, ?_, ?_⟩⟩
  · simp only [CommandLine.runSource_code_eq_zero_iff, Setup.check_ok_iff, exists_and_left]
  · exact (CommandLine.runSource_code_cases setup source).resolve_left
  · constructor
    · rintro ⟨e, he⟩
      obtain ⟨_, _, hcause⟩ := Setup.run_error he
      exact hcause.imp_left fun hload => ⟨e, hload⟩
    · rintro (⟨e, hload⟩ | ⟨suite, hload, hfilter⟩)
      · exact ⟨e, by rw [Setup.run_eq_of_load_error hload]⟩
      · obtain ⟨key, _, hrun⟩ := Suite.run_of_not_matches setup.transport setup.clock hload
          hfilter .initial
        exact ⟨.testNotFound key, by rw [Setup.run_eq_of_load hload, hrun]⟩
  · intro e he
    obtain ⟨hworld, hstatic, _⟩ := Setup.run_error he
    refine ⟨by rw [hworld]; rfl, hstatic, ?_⟩
    rw [Setup.check_outcome, he]
  · intro report hreport
    obtain ⟨suite, hload, hfilter, rfl⟩ := Setup.run_ok_iff.mp hreport
    have hexecuted : (Report.ofExecutions (setup.executions suite)).executed.Nodup := by
      refine (congrArg List.Nodup ?_).mpr (Suite.selected_nodup hload setup.config.filter)
      exact Suite.executions_keys setup.transport setup.clock suite _ _
    have hsublist := Report.failures_sublist (setup.executions suite)
    refine ⟨suite, hload, rfl, hexecuted, hsublist, hsublist.nodup hexecuted, ?_, ?_, ?_⟩
    · intro x hx e
      exact Report.recorded_iff hexecuted hx
    · rw [Setup.check_outcome, hreport]
      simp [Report.isSuccess]
    · intro hfailures
      rw [Setup.check_outcome, hreport]
      simp [Report.isSuccess, hfailures]

end HttpSuite
