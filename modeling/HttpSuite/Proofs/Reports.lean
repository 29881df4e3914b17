import HttpSuite.Proofs.References

/-!
What a run reports. Tests are executed one after the other, and every failure in a report is the
outcome of one of them. The main statement is about a loaded suite: its links lead where their
texts say, and if no resource leads back to itself, executing one fails only for what a test can
be wrong about.
-/

namespace HttpSuite

theorem Report.executed_add (report : Report) (key : String) (outcome : Except Failure Unit) :
    (report.add key outcome).executed = report.executed ++ [key] := rfl

theorem Report.mem_failures_add {report : Report} {key : String} {outcome : Except Failure Unit}
    {failure : String × Failure} :
    failure ∈ (report.add key outcome).failures ↔
      failure ∈ report.failures ∨ failure.1 = key ∧ outcome = .error failure.2 := by
  obtain ⟨k, e⟩ := failure
  cases outcome with
  | ok _ => simp [add]
  | error e' =>
      simp only [add, List.mem_append, List.mem_singleton, Prod.mk.injEq, Except.error.injEq]
      exact or_congr Iff.rfl (and_congr Iff.rfl eq_comm)

namespace Suite

variable (suite : Suite) (transport : Transport) (clock : Clock)

theorem runTests_append (earlier later : List Resource) (report : Report) (world : World) :
    suite.runTests transport clock (earlier ++ later) report world =
      suite.runTests transport clock later
        (suite.runTests transport clock earlier report world).1
        (suite.runTests transport clock earlier report world).2 := by
  induction earlier generalizing report world with
  | nil => rfl
  | cons test more ih => exact ih _ _

theorem runTests_executed (tests : List Resource) (report : Report) (world : World) :
    (suite.runTests transport clock tests report world).1.executed =
      report.executed ++ tests.map Resource.reference := by
  induction tests generalizing report world with
  | nil => exact (List.append_nil _).symm
  | cons test more ih =>
      refine (ih _ _).trans ?_
      rw [Report.executed_add, List.append_assoc, List.singleton_append, List.map_cons]

/-- A failure is the outcome of a test. -/
theorem mem_runTests_failures {tests : List Resource} {report : Report} {world : World}
    {failure : String × Failure}
    (h : failure ∈ (suite.runTests transport clock tests report world).1.failures) :
    failure ∈ report.failures ∨
      ∃ test ∈ tests, test.reference = failure.1 ∧ ∃ before,
        (suite.runTest transport clock suite.isolated test before).1 = .error failure.2 := by
  induction tests generalizing report world with
  | nil => exact .inl h
  | cons test more ih =>
      rcases ih h with hadd | ⟨t, ht, hfailure⟩
      · rcases Report.mem_failures_add.mp hadd with hreport | ⟨hkey, houtcome⟩
        · exact .inl hreport
        · exact .inr ⟨test, List.mem_cons_self, hkey.symm, world, houtcome⟩
      · exact .inr ⟨t, List.mem_cons_of_mem test ht, hfailure⟩

theorem tests_subset {test : Resource} (h : test ∈ suite.tests) :
    test ∈ suite.registry.resources :=
  (List.mem_filter.mp h).1

/-- Every failure that a run reports is one of executing a registered resource. -/
theorem mem_run_failures {filter : Option String} {world world' : World} {report : Report}
    (hrun : suite.run transport clock filter world = (.ok report, world'))
    {failure : String × Failure} (h : failure ∈ report.failures) :
    ∃ test ∈ suite.registry.resources, ∃ state,
      ((suite.environment transport clock).exec test state).1 = .error failure.2 := by
  cases filter with
  | none =>
      cases hrun
      rcases mem_runTests_failures suite transport clock h with hempty | ⟨test, ht, _, _, hfailure⟩
      · exact absurd hempty List.not_mem_nil
      · exact ⟨test, suite.tests_subset ht, _, hfailure⟩
  | some key =>
      simp only [run] at hrun
      split at hrun
      · cases hrun
      · next test htest =>
          cases hrun
          have hget := (Option.filter_eq_some_iff.mp htest).1
          rcases Report.mem_failures_add.mp h with hempty | ⟨_, hfailure⟩
          · exact absurd hempty List.not_mem_nil
          · exact ⟨test, Registry.get?_mem hget, _, hfailure⟩

theorem load_linked {config : Config} {ids : Nat → String} {document : Document} {suite : Suite}
    (h : load config ids document = .ok suite) : suite.registry.Linked := by
  intro r hr l hl
  obtain ⟨_, target, _, _, _, _, htarget⟩ := load_target? h hr hl
  exact ⟨target, htarget⟩

end Suite

theorem loaded_links_hold (setup : Setup) (document : Document) (suite : Suite)
    (hload : Suite.load setup.config setup.ids document = .ok suite) :
    setup.config.globals document = .ok suite.globals ∧
    (∀ r ∈ suite.registry.resources, ∀ l ∈ r.links, ∃ key target, key ≠ "" ∧
      Template.expand (some (suite.registry.scope suite.globals)) l.raw =
        .ok ("$\x7b" ++ key ++ ".ref\x7d") ∧
      suite.registry.get? key = some target ∧ l.isLinked = true ∧
      l.target? suite.registry = .ok target) ∧
    (suite.registry.Acyclic →
      (∀ r ∈ suite.registry.resources, ∀ (state : State) (e : Failure),
        ((suite.environment setup.transport setup.clock).exec r state).1 = .error e →
          e.IsRuntime ∧ ∀ raw, e ≠ .notLinked raw) ∧
      ∀ (report : Report) (world : World), setup.run document = (.ok report, world) →
        ∀ failure ∈ report.failures, failure.2.IsRuntime) := by
  have hlinked := Suite.load_linked hload
  refine ⟨(Suite.load_ok hload).1, fun r hr l hl => Suite.load_target? hload hr hl, ?_⟩
  intro hacyclic
  let env := suite.environment setup.transport setup.clock
  have hexec : ∀ r ∈ suite.registry.resources, ∀ (state : State) (e : Failure),
      (env.exec r state).1 = .error e → e.IsRuntime :=
    fun r hr => env.exec_failsOnly hlinked hacyclic hr
  refine ⟨?_, ?_⟩
  · intro r hr state e he
    refine ⟨hexec r hr state e he, ?_⟩
    rintro raw rfl
    exact hexec r hr state _ he
  · intro report world hrun failure hfailure
    simp only [Setup.run, hload] at hrun
    obtain ⟨test, ht, state, he⟩ :=
      suite.mem_run_failures setup.transport setup.clock hrun hfailure
    exact hexec test ht state failure.2 he

/-!
A suite of two tests. The page of the first is gone; the second asks for a page that is named by
the time of its request. Both check the status through a variable that holds the reference.
-/

def Literal.bare (text : String) : Literal :=
  ⟨text, ⟨0, 0⟩⟩

def Field.bare (name text : String) : Field :=
  ⟨⟨name, ⟨0, 0⟩⟩, .text (.bare text), ⟨0, 0⟩⟩

def Field.bareList (name : String) (texts : List String) : Field :=
  ⟨⟨name, ⟨0, 0⟩⟩, .list (texts.map .bare) ⟨0, 0⟩, ⟨0, 0⟩⟩

def Block.bare (id driver name : String) (fields : List Field) : Block :=
  ⟨⟨id, ⟨0, 0⟩⟩, .bare driver, .bare name, fields, ⟨0, 0⟩⟩

namespace Sample

def ok : Block :=
  .bare "resource" "http_assertion_status_code" "ok" [.bare "equals" "200"]

def stamp : Block :=
  .bare "resource" "system_variable" "stamp"
    [.bare "source" "time", .bare "variable" "now", .bare "format" "unix"]

def step (name url : String) : Block :=
  .bare "resource" "http_step" name
    [ .bare "method" "GET", .bare "url" url, .bareList "assertions" ["$\x7bvar.check\x7d"],
      .bareList "variables" ["$\x7bresource.system_variable.stamp.ref\x7d"] ]

def test (name : String) : Block :=
  .bare "resource" "http_test" name
    [.bareList "steps" ["$\x7bresource.http_step." ++ name ++ ".ref\x7d"]]

def document : Document :=
  [ .bare "variable" "string" "check"
      [.bare "default" "$\x7bresource.http_assertion_status_code.ok.ref\x7d"],
    ok, stamp, step "gone" "http://a/gone", step "now" "http://a/$\x7bvar.now\x7d", test "gone",
    test "now" ]

def setup : Setup :=
  { config := { filter := none, envPrefix := "", lookup := fun _ => none }
    ids := toString
    transport := fun _ request =>
      let status := if request.url = "http://a/gone" then 404 else 200
      .ok { status, headers := [], body := [] }
    clock := fun _ => ⟨60, 0⟩ }

def stepKind (url : String) : Kind :=
  .step {
    method := "GET", url, body := "", headers := []
    assertions := [⟨"$\x7bvar.check\x7d", some ⟨ok.reference, "1"⟩⟩]
    captures := [⟨"$\x7bresource.system_variable.stamp.ref\x7d", some ⟨stamp.reference, "2"⟩⟩] }

def testKind (name id : String) : Kind :=
  .test [
    ⟨"$\x7bresource.http_step." ++ name ++ ".ref\x7d",
      some ⟨"resource.http_step." ++ name, id⟩⟩]

def suite : Suite :=
  { registry := ⟨
      [ ⟨"1", ok, .assertion (.statusCode "200")⟩,
        ⟨"2", stamp, .capture (.time "now" .unix)⟩,
        ⟨"3", step "gone" "http://a/gone", stepKind "http://a/gone"⟩,
        ⟨"4", step "now" "http://a/$\x7bvar.now\x7d", stepKind "http://a/$\x7bvar.now\x7d"⟩,
        ⟨"5", test "gone", testKind "gone" "3"⟩,
        ⟨"6", test "now", testKind "now" "4"⟩ ]⟩
    globals := ⟨[("check", "$\x7bresource.http_assertion_status_code.ok.ref\x7d")]⟩ }

def report : Report :=
  { executed := [(test "gone").reference, (test "now").reference]
    failures :=
      [((test "gone").reference,
        .assertion ok.reference (.failed .equals (.statusDiffers "404" "200")))] }

def world : World :=
  { sent := [⟨"GET", "http://a/gone", [], ""⟩, ⟨"GET", "http://a/60", [], ""⟩], captured := 2 }

theorem load_document : Suite.load setup.config setup.ids document = .ok suite := by
  decide +kernel

theorem run_document : setup.run document = (.ok report, world) := by
  decide +kernel

end Sample

theorem sample_links_hold :
    Sample.suite.registry.Acyclic ∧
      Sample.setup.run Sample.document = (.ok Sample.report, Sample.world) ∧
      ∀ failure ∈ Sample.report.failures, failure.2.IsRuntime := by
  have hacyclic : Sample.suite.registry.Acyclic := by
    apply Registry.Acyclic.of_rank fun r => if r.isTest then 3 else r.links.length
    decide +kernel
  obtain ⟨_, _, hfailures⟩ :=
    loaded_links_hold Sample.setup Sample.document Sample.suite Sample.load_document
  have hreport := (hfailures hacyclic).2 Sample.report Sample.world Sample.run_document
  exact ⟨hacyclic, Sample.run_document, hreport⟩

end HttpSuite
