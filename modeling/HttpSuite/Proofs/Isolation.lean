import HttpSuite.Proofs.Reports

/-!
Tests do not depend on the tests before them. What earlier executions leave to later ones is a
world: the requests sent and the number of values captured. An execution only adds to both, so
one that starts in a later world does what it would have done in the first, provided that the
transport looks at the request alone and the clock goes on from where it was. A test among
others and a test on its own then start with the same variables and end in the same way.
-/

namespace HttpSuite

/-- The answer to a request does not depend on the requests before it. -/
def Transport.Memoryless (transport : Transport) : Prop :=
  ∀ earlier earlier' request, transport earlier request = transport earlier' request

/-- A world in which one is followed by another. -/
def World.followedBy (past w : World) : World :=
  { sent := past.sent ++ w.sent, captured := past.captured + w.captured }

/-- A state in a world with a past. -/
def State.after (past : World) (s : State) : State :=
  { s with toWorld := past.followedBy s.toWorld }

@[simp] theorem World.followedBy_initial (past : World) : past.followedBy .initial = past := by
  simp [followedBy, initial]

/-- One environment meets after a past what the other meets from the start. -/
structure Environment.Resumes (env env' : Environment) (past : World) : Prop where
  registry : env.registry = env'.registry
  transport : ∀ earlier earlier' request,
    env.transport earlier request = env'.transport earlier' request
  clock : ∀ n, env.clock (past.captured + n) = env'.clock n

namespace Environment

variable {env env' : Environment} {past : World}

/-- The outcomes are the same and the state differs by the past. -/
abbrev AgreeAfter {α : Type} (past : World) (x y : Run α) : Prop :=
  Run.Agree (fun s t => s = t.after past) x y

theorem Resumes.scope (h : env.Resumes env' past) (s : State) :
    env.scope (s.after past) = env'.scope s := by
  rw [Environment.scope, h.registry]
  rfl

theorem setResponse_agree (response : Option Response) :
    AgreeAfter past (setResponse response) (setResponse response) := by
  rintro _ s rfl
  rw [setResponse_apply, setResponse_apply]
  exact ⟨rfl, rfl⟩

theorem runAssertion_agree (h : env.Resumes env' past) (reference : String) (a : Assertion) :
    AgreeAfter past (env.runAssertion reference a) (env'.runAssertion reference a) := by
  rintro _ s rfl
  rw [runAssertion_apply, runAssertion_apply, h.scope]
  exact ⟨rfl, rfl⟩

theorem runCapture_agree (h : env.Resumes env' past) (reference : String) (c : Capture) :
    AgreeAfter past (env.runCapture reference c) (env'.runCapture reference c) := by
  rintro _ s rfl
  have hclock : env.clock (s.after past).captured = env'.clock s.captured := h.clock s.captured
  have hresponse : (s.after past).response = s.response := rfl
  rw [runCapture_apply, runCapture_apply, h.scope, hclock, hresponse]
  cases c.assignment (env'.scope s) s.response (env'.clock s.captured) reference with
  | error e => exact ⟨rfl, rfl⟩
  | ok binding =>
      cases binding with
      | none => exact ⟨rfl, rfl⟩
      | some assigned => exact ⟨rfl, rfl⟩

theorem send_agree (h : env.Resumes env' past) (request : Request) :
    AgreeAfter past (env.send request) (env'.send request) := by
  rintro _ s rfl
  rw [send_apply, send_apply, h.transport (s.after past).sent s.sent]
  have hsent : (s.after past).sent ++ [request] = past.sent ++ (s.sent ++ [request]) :=
    List.append_assoc _ _ _
  rw [hsent]
  cases env'.transport s.sent request <;> exact ⟨rfl, rfl⟩

theorem stepRequest_agree (h : env.Resumes env' past) (step : Step) :
    AgreeAfter past (env.stepRequest step) (env'.stepRequest step) := by
  rintro _ s rfl
  rw [stepRequest_apply, stepRequest_apply, h.scope]
  exact ⟨rfl, rfl⟩

theorem follow_agree (h : env.Resumes env' past) {exec exec' : Resource → Run Unit}
    (hexec : ∀ r, AgreeAfter past (exec r) (exec' r)) (l : Link) :
    AgreeAfter past (env.follow exec l) (env'.follow exec' l) := by
  rintro _ s rfl
  rw [follow_apply, follow_apply, h.registry]
  cases l.target? env'.registry with
  | error e => exact ⟨rfl, rfl⟩
  | ok r => exact hexec r _ s rfl

theorem runStep_agree (h : env.Resumes env' past) {exec exec' : Resource → Run Unit}
    (hexec : ∀ r, AgreeAfter past (exec r) (exec' r)) (step : Step) :
    AgreeAfter past (env.runStep exec step) (env'.runStep exec' step) := by
  have hfollow : ∀ l, AgreeAfter past (env.follow exec l) (env'.follow exec' l) :=
    follow_agree h hexec
  rw [runStep_eq, runStep_eq]
  refine (setResponse_agree none).bind fun _ => ?_
  refine (Run.Agree.forM hfollow step.captures).bind fun _ => ?_
  refine (stepRequest_agree h step).bind fun request => ?_
  refine (send_agree h request).bind fun response => ?_
  refine (setResponse_agree (some response)).bind fun _ => ?_
  refine (Run.Agree.forM hfollow step.assertions).bind fun _ => ?_
  exact Run.Agree.forM hfollow step.captures

theorem runNested_agree (h : env.Resumes env' past) (levels : Nat) (r : Resource) :
    AgreeAfter past (env.runNested levels r) (env'.runNested levels r) := by
  induction levels generalizing r with
  | zero =>
      unfold runNested
      cases r.kind with
      | step s => exact .throw _
      | test steps => exact .throw _
      | assertion a => exact runAssertion_agree h r.reference a
      | capture c => exact runCapture_agree h r.reference c
  | succ levels ih =>
      unfold runNested
      cases r.kind with
      | step s => exact runStep_agree h ih s
      | test steps => exact .forM (follow_agree h ih) steps
      | assertion a => exact runAssertion_agree h r.reference a
      | capture c => exact runCapture_agree h r.reference c

theorem exec_agree (h : env.Resumes env' past) (r : Resource) :
    AgreeAfter past (env.exec r) (env'.exec r) := by
  rw [exec, exec, h.registry]
  exact runNested_agree h _ r

end Environment

/-- The failures that a report records of one test. -/
def Report.failuresOf (report : Report) (key : String) : List (String × Failure) :=
  report.failures.filter fun failure => failure.1 == key

theorem Report.failuresOf_add (report : Report) (key : String) (outcome : Except Failure Unit) :
    (report.add key outcome).failuresOf key =
      report.failuresOf key ++ (Report.empty.add key outcome).failures := by
  cases outcome with
  | ok _ => exact (List.append_nil _).symm
  | error e => simp [failuresOf, add, empty]

theorem Report.failuresOf_add_ne (report : Report) {key other : String} (h : other ≠ key)
    (outcome : Except Failure Unit) :
    (report.add other outcome).failuresOf key = report.failuresOf key := by
  cases outcome with
  | ok _ => rfl
  | error e => simp [failuresOf, add, h]

namespace Suite

variable (suite : Suite) (transport : Transport) (clock : Clock)

/-- The world after some tests have been run one after the other. -/
def worldAfter (tests : List Resource) : World :=
  (suite.runTests transport clock tests .empty .initial).2

theorem runTest_after (hmemoryless : transport.Memoryless) {clock' : Clock} {past : World}
    (hclock : ∀ n, clock' n = clock (past.captured + n)) (context : Context) (test : Resource) :
    suite.runTest transport clock context test past =
      ((suite.runTest transport clock' context test .initial).1,
        past.followedBy (suite.runTest transport clock' context test .initial).2) := by
  let env := suite.environment transport clock
  let env' := suite.environment transport clock'
  have hresumes : env.Resumes env' past := ⟨rfl, hmemoryless, fun n => (hclock n).symm⟩
  let s : State := { context, past with }
  let t : State := { context, World.initial with }
  have hstart : s = t.after past := by simp only [s, t, State.after, World.followedBy_initial]
  obtain ⟨houtcome, hstate⟩ := Environment.exec_agree hresumes test s t hstart
  exact Prod.ext houtcome (congrArg State.toWorld hstate)

theorem runTests_failuresOf {key : String} {tests : List Resource}
    (h : key ∉ tests.map Resource.reference) (report : Report) (world : World) :
    (suite.runTests transport clock tests report world).1.failuresOf key =
      report.failuresOf key := by
  induction tests generalizing report world with
  | nil => rfl
  | cons test more ih =>
      rw [List.map_cons, List.mem_cons, not_or] at h
      exact (ih h.2 _ _).trans (report.failuresOf_add_ne (Ne.symm h.1) _)

theorem runTest_sent (hmemoryless : transport.Memoryless) (context : Context) (test : Resource)
    (world : World) :
    ∃ own, (suite.runTest transport clock context test world).2.sent = world.sent ++ own := by
  rw [suite.runTest_after transport clock hmemoryless (fun n => rfl) context test]
  exact ⟨_, rfl⟩

theorem runTests_sent (hmemoryless : transport.Memoryless) (tests : List Resource)
    (report : Report) (world : World) :
    ∃ more, (suite.runTests transport clock tests report world).2.sent = world.sent ++ more := by
  induction tests generalizing report world with
  | nil => exact ⟨[], (List.append_nil _).symm⟩
  | cons test rest ih =>
      obtain ⟨own, hown⟩ := suite.runTest_sent transport clock hmemoryless suite.isolated test world
      obtain ⟨more, hmore⟩ := ih
        (report.add test.reference (suite.runTest transport clock suite.isolated test world).1)
        (suite.runTest transport clock suite.isolated test world).2
      rw [hown, List.append_assoc] at hmore
      exact ⟨own ++ more, hmore⟩

/-- Where a test stands among others, it does what it does alone. -/
theorem runTests_split (hmemoryless : transport.Memoryless) (earlier later : List Resource)
    (test : Resource) {clock' : Clock}
    (hclock : ∀ n, clock' n = clock ((suite.worldAfter transport clock earlier).captured + n)) :
    suite.runTests transport clock (earlier ++ test :: later) .empty .initial =
      suite.runTests transport clock later
        ((suite.runTests transport clock earlier .empty .initial).1.add test.reference
          (suite.runTest transport clock' suite.isolated test .initial).1)
        ((suite.worldAfter transport clock earlier).followedBy
          (suite.runTest transport clock' suite.isolated test .initial).2) := by
  have hafter := suite.runTest_after transport clock hmemoryless hclock suite.isolated test
  rw [suite.runTests_append, runTests]
  change suite.runTests transport clock later
    ((suite.runTests transport clock earlier .empty .initial).1.add test.reference
      (suite.runTest transport clock suite.isolated test
        (suite.worldAfter transport clock earlier)).1)
    (suite.runTest transport clock suite.isolated test
      (suite.worldAfter transport clock earlier)).2 = _
  rw [hafter]

theorem loaded_eq {config : Config} {ids : Nat → String} {document : Document} {suite : Suite}
    (h : load config ids document = .ok suite) :
    suite.loaded = { bindings := suite.globals, response := none } :=
  Context.seed_blank suite.globals (config.globals_nodup document suite.globals (load_ok h).1)

theorem tests_nodup {config : Config} {ids : Nat → String} {document : Document} {suite : Suite}
    (h : load config ids document = .ok suite) :
    (suite.tests.map Resource.reference).Nodup :=
  (load_nodup_keys h).sublist (List.filter_sublist.map Resource.reference)

theorem get?_test {config : Config} {ids : Nat → String} {document : Document} {suite : Suite}
    (h : load config ids document = .ok suite) {test : Resource} (ht : test ∈ suite.tests) :
    (suite.registry.get? test.reference).filter Resource.isTest = some test := by
  have hget := Registry.get?_of_mem (load_nodup_keys h) (suite.tests_subset ht)
  have htest := (Bool.and_eq_true_iff.mp (List.mem_filter.mp ht).2).2
  rw [hget, Option.filter_some, if_pos htest]

end Suite

/-- The run of one test alone, with another clock. -/
def Setup.only (setup : Setup) (key : String) (clock : Clock) : Setup :=
  { setup with clock, config := { setup.config with filter := some key } }

theorem Setup.run_only {setup : Setup} {document : Document} {suite : Suite}
    (hload : Suite.load setup.config setup.ids document = .ok suite) {test : Resource}
    (ht : test ∈ suite.tests) (clock : Clock) :
    (setup.only test.reference clock).run document =
      let (outcome, own) := suite.runTest setup.transport clock suite.loaded test .initial
      (.ok (Report.empty.add test.reference outcome), own) := by
  have hsame : Suite.load (setup.only test.reference clock).config
      (setup.only test.reference clock).ids document = .ok suite := hload
  simp only [run]
  rw [hsame]
  simp only [Suite.run, only, Suite.get?_test hload ht]

theorem tests_run_alone (setup : Setup) (document : Document) (suite : Suite)
    (hload : Suite.load setup.config setup.ids document = .ok suite)
    (hfilter : setup.config.filter = none) (hmemoryless : setup.transport.Memoryless) :
    setup.config.globals document = .ok suite.globals ∧
    suite.isolated = { bindings := suite.globals, response := none } ∧
    suite.loaded = { bindings := suite.globals, response := none } ∧
    ∃ report world, setup.run document = (.ok report, world) ∧ report.executed.Nodup ∧
      ∀ key ∈ report.executed, ∃ earlier test later,
        suite.tests = earlier ++ test :: later ∧ test.reference = key ∧
        ∀ clock : Clock,
          (∀ n, clock n =
            setup.clock ((suite.worldAfter setup.transport setup.clock earlier).captured + n)) →
          ∃ solo own rest, (setup.only key clock).run document = (.ok solo, own) ∧
            solo.executed = [key] ∧ solo.failures = report.failuresOf key ∧
            (suite.worldAfter setup.transport setup.clock (earlier ++ [test])).sent =
              (suite.worldAfter setup.transport setup.clock earlier).sent ++ own.sent ∧
            world.sent =
              (suite.worldAfter setup.transport setup.clock earlier).sent ++ own.sent ++ rest := by
  have hstart := Suite.loaded_eq hload
  refine ⟨(Suite.load_ok hload).1, hstart, hstart, ?_⟩
  refine ⟨(suite.runTests setup.transport setup.clock suite.tests .empty .initial).1,
    suite.worldAfter setup.transport setup.clock suite.tests, ?_, ?_, ?_⟩
  · simp only [Setup.run, hload, hfilter]
    rfl
  · rw [suite.runTests_executed]
    exact Suite.tests_nodup hload
  · intro key hkey
    rw [suite.runTests_executed] at hkey
    obtain ⟨test, ht, rfl⟩ := List.mem_map.mp hkey
    obtain ⟨earlier, later, htests⟩ := List.append_of_mem ht
    refine ⟨earlier, test, later, htests, rfl, ?_⟩
    intro clock hclock
    have hsplit := suite.runTests_split setup.transport setup.clock hmemoryless earlier
    have hnodup := Suite.tests_nodup hload
    rw [htests, List.map_append, List.map_cons, List.nodup_append, List.nodup_cons] at hnodup
    obtain ⟨_, ⟨hlater, _⟩, hdistinct⟩ := hnodup
    have hearlier : test.reference ∉ earlier.map Resource.reference :=
      fun hmem => hdistinct _ hmem _ List.mem_cons_self rfl
    obtain ⟨rest, hrest⟩ := suite.runTests_sent setup.transport setup.clock hmemoryless later
      ((suite.runTests setup.transport setup.clock earlier .empty .initial).1.add test.reference
        (suite.runTest setup.transport clock suite.isolated test .initial).1)
      ((suite.worldAfter setup.transport setup.clock earlier).followedBy
        (suite.runTest setup.transport clock suite.isolated test .initial).2)
    refine ⟨_, _, rest, Setup.run_only hload ht clock, rfl, ?_, ?_, ?_⟩
    · rw [htests, hsplit later test hclock, suite.runTests_failuresOf _ _ hlater,
        Report.failuresOf_add, suite.runTests_failuresOf _ _ hearlier]
      rfl
    · rw [Suite.worldAfter, hsplit [] test hclock]
      rfl
    · rw [Suite.worldAfter, htests, hsplit later test hclock]
      exact hrest

theorem sample_tests_run_alone :
    Sample.setup.run Sample.document = (.ok Sample.report, Sample.world) ∧
    ∃ solo own, (Sample.setup.only (Sample.test "now").reference Sample.setup.clock).run
        Sample.document = (.ok solo, own) ∧
      solo.executed = [(Sample.test "now").reference] ∧
      solo.failures = Sample.report.failuresOf (Sample.test "now").reference ∧
      ∃ before rest, Sample.world.sent = before ++ own.sent ++ rest := by
  refine ⟨Sample.run_document, ?_⟩
  obtain ⟨_, _, _, report, world, hrun, _, hkeys⟩ :=
    tests_run_alone Sample.setup Sample.document Sample.suite Sample.load_document rfl
      (fun _ _ _ => rfl)
  rw [Sample.run_document] at hrun
  cases hrun
  have hmem : (Sample.test "now").reference ∈ Sample.report.executed := by decide +kernel
  obtain ⟨_, _, _, _, _, halone⟩ := hkeys (Sample.test "now").reference hmem
  obtain ⟨solo, own, rest, hsolo, hexecuted, hfailures, _, hsent⟩ :=
    halone Sample.setup.clock fun _ => rfl
  exact ⟨solo, own, hsolo, hexecuted, hfailures, _, rest, hsent⟩

end HttpSuite
