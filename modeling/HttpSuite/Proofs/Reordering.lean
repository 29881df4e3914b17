import HttpSuite.Proofs.Listing

/-!
The order of blocks does not matter. A registry answers by key alone if its keys are distinct,
and so linking and executing do the same over any order of its resources. Only the variables
of a document have an order that counts.
-/

namespace HttpSuite

section Linking

variable {registry other : Registry}

theorem Registry.scope_congr (h : registry.get? = other.get?) (bindings : Bindings) :
    registry.scope bindings = other.scope bindings := by
  simp only [scope, h]

theorem Link.find_congr (h : registry.get? = other.get?) (bindings : Bindings) (raw : String) :
    find registry bindings raw = find other bindings raw := by
  simp only [find, Registry.scope_congr h, h]

theorem Link.target?_congr (h : registry.get? = other.get?) (l : Link) :
    l.target? registry = l.target? other := by
  have hholder : registry.holder? = other.holder? := by
    funext handle
    simp only [Registry.holder?, h]
  simp only [target?, hholder]

theorem Link.resolveAll_congr (h : registry.get? = other.get?) (bindings : Bindings)
    (owner : String) (ls : List Link) :
    resolveAll registry bindings owner ls = resolveAll other bindings owner ls := by
  induction ls with
  | nil => rfl
  | cons l more ih => simp only [resolveAll, resolve, find_congr h, ih]

theorem Resource.link_congr (h : registry.get? = other.get?) (bindings : Bindings)
    (r : Resource) : r.link registry bindings = r.link other bindings := by
  simp only [link, Link.resolveAll_congr h]

theorem Registry.resources_link {bindings : Bindings} {linked : Registry}
    (h : registry.link bindings = (.ok (), linked)) :
    linked.resources = registry.resources.map fun r => (r.link registry bindings).2 := by
  have hlinked := link_ok h
  generalize registry.resources = before at hlinked ⊢
  generalize linked.resources = after at hlinked ⊢
  induction hlinked with
  | nil => rfl
  | cons hr _ ih => rw [List.map_cons, hr, ih]

end Linking

namespace Environment

/-- Two environments over registries that answer alike. -/
structure Alike (env other : Environment) : Prop where
  get? : env.registry.get? = other.registry.get?
  size : env.registry.size = other.registry.size
  transport : env.transport = other.transport
  clock : env.clock = other.clock

variable {env other : Environment}

theorem Alike.scope (h : env.Alike other) : env.scope = other.scope := by
  funext state
  exact Registry.scope_congr h.get? state.bindings

theorem Alike.follow (h : env.Alike other) : env.follow = other.follow := by
  funext exec l
  simp only [Environment.follow, Link.target?_congr h.get?]

theorem Alike.runAssertion (h : env.Alike other) : env.runAssertion = other.runAssertion := by
  funext reference a
  simp only [Environment.runAssertion, h.scope]

theorem Alike.runCapture (h : env.Alike other) : env.runCapture = other.runCapture := by
  funext reference c
  simp only [Environment.runCapture, h.scope, h.clock]

theorem Alike.runStep (h : env.Alike other) : env.runStep = other.runStep := by
  funext exec s
  simp only [Environment.runStep, Environment.send, h.follow, h.scope, h.transport]

theorem Alike.runNested (h : env.Alike other) (levels : Nat) :
    env.runNested levels = other.runNested levels := by
  -- Steps and tests go one level down, assertions and captures do the same at each level.
  induction levels with
  | zero =>
      funext r
      unfold Environment.runNested
      cases r.kind with
      | step _ | test _ => rfl
      | assertion a => exact congrFun₂ h.runAssertion r.reference a
      | capture c => exact congrFun₂ h.runCapture r.reference c
  | succ levels ih =>
      funext r
      unfold Environment.runNested
      cases r.kind with
      | step s => simp only [h.runStep, ih]
      | test steps => simp only [h.follow, ih]
      | assertion a => exact congrFun₂ h.runAssertion r.reference a
      | capture c => exact congrFun₂ h.runCapture r.reference c

theorem Alike.exec (h : env.Alike other) : env.exec = other.exec := by
  funext r
  rw [Environment.exec, Environment.exec, h.size, h.runNested]

end Environment

/-- Blocks in another order: resources keep their ids, and variables their order. -/
structure Document.Reordered (ids : Nat → String) (document : Document) (ids' : Nat → String)
    (document' : Document) : Prop where
  blocks : document.Perm document'
  resources :
    ((Suite.withIds ids document).filter fun entry => entry.2.id.name == "resource").Perm
      ((Suite.withIds ids' document').filter fun entry => entry.2.id.name == "resource")
  declared :
    document.filter (fun b => b.id.name == "variable") =
      document'.filter fun b => b.id.name == "variable"

/-- The resources of a document have keys of their own. -/
def Document.DistinctKeys (document : Document) : Prop :=
  ((document.filter fun b => b.id.name == "resource").map Block.reference).Nodup

theorem declareGlobals_filter (override? : String → Option String) (start : Bindings)
    (document : Document) :
    declareGlobals override? start (document.filter fun b => b.id.name == "variable") =
      declareGlobals override? start document := by
  induction document generalizing start with
  | nil => rfl
  | cons b more ih =>
      by_cases hvariable : b.id.name = "variable"
      · simp [declareGlobals, hvariable, ih]
      · simp [declareGlobals, hvariable, ih]

namespace Document

variable {ids ids' : Nat → String} {document document' : Document}

theorem Reordered.symm (h : Reordered ids document ids' document') :
    Reordered ids' document' ids document :=
  ⟨h.blocks.symm, h.resources.symm, h.declared.symm⟩

theorem Reordered.distinctKeys (h : Reordered ids document ids' document') :
    document.DistinctKeys ↔ document'.DistinctKeys :=
  ((h.blocks.filter _).map Block.reference).nodup_iff

theorem Reordered.globals (h : Reordered ids document ids' document') (config : Config) :
    config.globals document = config.globals document' := by
  rw [Config.globals, Config.globals, ← declareGlobals_filter, h.declared, declareGlobals_filter]

end Document

namespace Suite

theorem made_eq_filter (blocks : List (String × Block)) :
    made blocks = (blocks.filter fun entry => entry.2.id.name == "resource").filterMap
      fun entry => (Resource.ofBlock entry.1 entry.2).toOption := by
  simp [made, List.filterMap_filter]

variable {config : Config} {ids ids' : Nat → String} {document document' : Document}
variable {suite suite' : Suite}

theorem survivors_resources (hkeys : document.DistinctKeys)
    (hblocks : Faultless Block.Refused document) :
    (survivors ids document).resources = made (withIds ids document) := by
  refine Registry.latest_of_nodup ?_
  rw [← withIds_blocks ids document] at hblocks
  rw [made_keys hblocks, withIds_blocks]
  exact hkeys

theorem survivors_perm (h : Document.Reordered ids document ids' document')
    (hkeys : document.DistinctKeys) (hblocks : Faultless Block.Refused document) :
    (survivors ids document).resources.Perm (survivors ids' document').resources := by
  rw [survivors_resources hkeys hblocks, survivors_resources (h.distinctKeys.mp hkeys)
    ((faultless_perm h.blocks).mp hblocks), made_eq_filter, made_eq_filter]
  exact h.resources.filterMap _

theorem survivors_nodup (ids : Nat → String) (document : Document) :
    (survivors ids document).keys.Nodup := by
  rw [survivors_eq, Registry.keys_insertAll_empty]
  exact nodup_distinct _

/-- A document whose blocks are reordered loads as well, with the same resources and links. -/
theorem load_reordered (h : Document.Reordered ids document ids' document')
    (hkeys : document.DistinctKeys) (hload : load config ids document = .ok suite) :
    ∃ suite', load config ids' document' = .ok suite' ∧ suite'.globals = suite.globals ∧
      suite.registry.resources.Perm suite'.registry.resources := by
  obtain ⟨hglobals, hblocks, hlink⟩ := load_eq_ok_iff.mp hload
  have hperm := survivors_perm h hkeys hblocks
  have hget := Registry.get?_of_perm hperm (survivors_nodup ids document)
  let linked := (survivors ids' document').link suite.globals
  have hlink' : (survivors ids' document').link suite.globals = (.ok (), linked.2) := by
    refine Prod.ext (Registry.link_isOk_iff.mpr fun r hr l hl => ?_) rfl
    have hall := Registry.link_isOk_iff.mp (congrArg Prod.fst hlink)
    rw [← Link.find_congr hget]
    exact hall r (hperm.mem_iff.mpr hr) l hl
  refine ⟨⟨linked.2, suite.globals⟩, ?_, rfl, ?_⟩
  · rw [h.globals config] at hglobals
    exact load_eq_ok_iff.mpr ⟨hglobals, (faultless_perm h.blocks).mp hblocks, hlink'⟩
  · rw [Registry.resources_link hlink, Registry.resources_link hlink']
    simp only [Resource.link_congr hget]
    exact hperm.map _

section Executions

variable {transport : Transport} {clock : Clock}

/-- What a test does after a past it does as the first, if the clock goes on from where it was. -/
theorem execution_after (hmemoryless : transport.Memoryless) {clock' : Clock} {past : World}
    (hclock : ∀ n, clock' n = clock (past.captured + n)) (suite : Suite) (test : Resource) :
    suite.execution transport clock test past =
      ((suite.execution transport clock' test .initial).1,
        past.followedBy (suite.execution transport clock' test .initial).2) := by
  have hafter := suite.runTest_after transport clock hmemoryless hclock
    { bindings := suite.globals, response := none } test
  rw [runTest_eq_execution, runTest_eq_execution, Prod.mk.injEq] at hafter
  obtain ⟨houtcome, hworld⟩ := hafter
  have hsent : (suite.execution transport clock test past).1.sent =
      (suite.execution transport clock' test .initial).1.sent := by
    change (suite.execution transport clock test past).2.sent.drop past.sent.length = _
    rw [hworld]
    exact List.drop_left
  exact Prod.ext (Execution.ext rfl houtcome hsent) hworld

theorem execution_sent (hmemoryless : transport.Memoryless) (suite : Suite) (test : Resource)
    (world : World) :
    (suite.execution transport clock test world).2.sent =
      world.sent ++ (suite.execution transport clock test world).1.sent := by
  rw [execution_after hmemoryless (fun _ => rfl)]
  rfl

/-- Where neither the answers nor the time depend on what was before, no execution does. -/
theorem executions_eq_map (hmemoryless : transport.Memoryless)
    (hclock : ∀ n m, clock n = clock m) (suite : Suite) (tests : List Resource)
    (world : World) :
    suite.executions transport clock tests world =
      tests.map fun test => (suite.execution transport clock test .initial).1 := by
  induction tests generalizing world with
  | nil => rfl
  | cons test more ih =>
      -- After `world` the test does what it does at first, as the clock always shows the same.
      have hpast : ∀ n, clock n = clock (world.captured + n) := fun n => hclock n _
      rw [executions, execution_after hmemoryless hpast]
      exact congrArg (_ :: ·) (ih _)

/-- Every request of a run of tests was sent by one of them. -/
theorem runTests_sent_eq (hmemoryless : transport.Memoryless)
    (h : load config ids document = .ok suite) (tests : List Resource) (report : Report)
    (world : World) :
    (suite.runTests transport clock tests report world).2.sent =
      world.sent ++ (suite.executions transport clock tests world).flatMap Execution.sent := by
  induction tests generalizing report world with
  | nil => simp [runTests, executions]
  | cons test more ih =>
      simp only [runTests_cons transport clock h, executions, ih, List.flatMap_cons,
        execution_sent hmemoryless, List.append_assoc]

theorem execution_congr (hperm : suite.registry.resources.Perm suite'.registry.resources)
    (hkeys : suite.registry.keys.Nodup) (hglobals : suite'.globals = suite.globals) :
    suite.execution transport clock = suite'.execution transport clock := by
  have halike : Environment.Alike { registry := suite.registry, transport, clock }
      { registry := suite'.registry, transport, clock } :=
    ⟨Registry.get?_of_perm hperm hkeys, hperm.length_eq, rfl, rfl⟩
  funext test world
  simp only [execution, halike.exec, hglobals]

/-- The executions of a run stand in the order of its registry, and differ in nothing else. -/
theorem executions_perm (hmemoryless : transport.Memoryless) (hclock : ∀ n m, clock n = clock m)
    (hperm : suite.registry.resources.Perm suite'.registry.resources)
    (hkeys : suite.registry.keys.Nodup) (hglobals : suite'.globals = suite.globals) :
    (suite.executions transport clock suite.tests .initial).Perm
      (suite'.executions transport clock suite'.tests .initial) := by
  rw [executions_eq_map hmemoryless hclock, executions_eq_map hmemoryless hclock,
    execution_congr hperm hkeys hglobals]
  exact (hperm.filter _).map _

end Executions
end Suite

theorem Setup.run_unfiltered (setup : Setup) {document : Document} {suite : Suite}
    (hload : Suite.load setup.config setup.ids document = .ok suite)
    (hfilter : setup.config.filter = none) (hmemoryless : setup.transport.Memoryless) :
    ∃ world, setup.run document = (.ok (.ofExecutions (setup.executions suite)), world) ∧
      world.sent = (setup.executions suite).flatMap Execution.sent := by
  let world := (suite.runTests setup.transport setup.clock suite.tests .empty .initial).2
  refine ⟨world, ?_, ?_⟩
  · rw [run_eq_of_load hload, executions, hfilter]
    exact Prod.ext (Suite.run_of_matches _ _ hload suite.matches_none .initial) rfl
  · rw [executions, hfilter]
    exact Suite.runTests_sent_eq hmemoryless hload suite.tests .empty .initial

theorem reordering_keeps_verdicts (setup : Setup) (ids' : Nat → String)
    (document document' : Document)
    (horder : Document.Reordered setup.ids document ids' document')
    (hkeys : document.DistinctKeys) (hfilter : setup.config.filter = none)
    (hclock : ∀ n m, setup.clock n = setup.clock m)
    (hmemoryless : setup.transport.Memoryless) :
    ((∃ suite, Suite.load setup.config setup.ids document = .ok suite) ↔
      ∃ suite, Suite.load setup.config ids' document' = .ok suite) ∧
    ∀ suite suite', Suite.load setup.config setup.ids document = .ok suite →
      Suite.load setup.config ids' document' = .ok suite' →
      suite.registry.resources.Perm suite'.registry.resources ∧
      (∀ r ∈ suite.registry.resources, ∀ l ∈ r.links, ∃ target,
        l.target? suite.registry = .ok target ∧ l.target? suite'.registry = .ok target) ∧
      ∃ world world',
        setup.run document = (.ok (.ofExecutions (setup.executions suite)), world) ∧
        ({ setup with ids := ids' } : Setup).run document' =
          (.ok (.ofExecutions (setup.executions suite')), world') ∧
        world.sent = (setup.executions suite).flatMap Execution.sent ∧
        world'.sent = (setup.executions suite').flatMap Execution.sent ∧
        ((setup.executions suite).map Execution.key).Nodup ∧
        (setup.executions suite).Perm (setup.executions suite') := by
  constructor
  · constructor
    · rintro ⟨suite, hload⟩
      obtain ⟨suite', hload', _⟩ := Suite.load_reordered horder hkeys hload
      exact ⟨suite', hload'⟩
    · rintro ⟨suite', hload'⟩
      obtain ⟨suite, hload, _⟩ :=
        Suite.load_reordered horder.symm (horder.distinctKeys.mp hkeys) hload'
      exact ⟨suite, hload⟩
  · intro suite suite' hload hload'
    obtain ⟨_, hloaded, hglobals, hperm⟩ := Suite.load_reordered horder hkeys hload
    cases hloaded.symm.trans hload'
    have hnodup := Suite.load_nodup_keys hload
    have hget := Registry.get?_of_perm hperm hnodup
    obtain ⟨world, hrun, hsent⟩ := setup.run_unfiltered hload hfilter hmemoryless
    obtain ⟨world', hrun', hsent'⟩ :=
      Setup.run_unfiltered { setup with ids := ids' } hload' hfilter hmemoryless
    refine ⟨hperm, ?_, world, world', hrun, hrun', hsent, hsent', ?_, ?_⟩
    · intro r hr l hl
      obtain ⟨target, htarget⟩ := Suite.load_linked hload r hr l hl
      exact ⟨target, htarget, (Link.target?_congr hget l).symm.trans htarget⟩
    · rw [Setup.executions, Suite.executions_keys]
      exact Suite.selected_nodup hload setup.config.filter
    · rw [Setup.executions, Setup.executions, hfilter]
      exact Suite.executions_perm hmemoryless hclock hperm hnodup hglobals

/-- The blocks from last to first, so that every link leads forward. -/
theorem sample_reordering_keeps_verdicts :
    Document.Reordered Sample.setup.ids Sample.document (fun n => toString (6 - n))
      Sample.document.reverse ∧
    Sample.document.DistinctKeys ∧
    ∃ suite, Suite.load Sample.setup.config (fun n => toString (6 - n))
        Sample.document.reverse = .ok suite ∧
      suite.registry.keys = Sample.suite.registry.keys.reverse ∧
      (Sample.setup.executions Sample.suite).Perm (Sample.setup.executions suite) := by
  have hids : Suite.withIds (fun n => toString (6 - n)) Sample.document.reverse =
      (Suite.withIds Sample.setup.ids Sample.document).reverse := by
    decide +kernel
  have horder : Document.Reordered Sample.setup.ids Sample.document (fun n => toString (6 - n))
      Sample.document.reverse := by
    refine ⟨(List.reverse_perm _).symm, ?_, by decide +kernel⟩
    rw [hids]
    exact ((List.reverse_perm _).filter _).symm
  have hkeys : Sample.document.DistinctKeys := by
    show List.Nodup _
    decide +kernel
  obtain ⟨hloads, hverdicts⟩ := reordering_keeps_verdicts Sample.setup _ _ _ horder hkeys rfl
    (fun _ _ => rfl) (fun _ _ _ => rfl)
  obtain ⟨suite, hload⟩ := hloads.mp ⟨Sample.suite, Sample.load_document⟩
  obtain ⟨_, _, _, _, _, _, _, _, _, hperm⟩ := hverdicts Sample.suite suite Sample.load_document hload
  refine ⟨horder, hkeys, suite, hload, ?_, hperm⟩
  rw [Suite.load_keys hload]
  decide +kernel

end HttpSuite
