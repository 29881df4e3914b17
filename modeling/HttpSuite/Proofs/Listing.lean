import HttpSuite.Proofs.Executions

/-!
The listed tests of a document are those that a run executes. A listing looks at the keys of
blocks, a run at the resources that hold keys and at their kinds. Drivers have names without
points, so the beginning of a key tells the driver, and a document that loads has a test under
each key that begins as keys of tests do.
-/

namespace HttpSuite

def Setup.filtered (setup : Setup) (filter : Option String) : Setup :=
  { setup with config := { setup.config with filter } }

theorem isTestKey_variable {b : Block} (h : b.id.name = "variable") :
    isTestKey b.reference = false := by
  simp [isTestKey, testKeyStart, Block.reference, h, List.isPrefixOf]

/-- The beginning of the key of a resource tells whether it is a test. -/
theorem isTestKey_resource {b : Block} (hresource : b.id.name = "resource") {d : Driver}
    (hd : d.name = b.driver.text) : isTestKey b.reference = decide (d = .httpTest) := by
  simp only [isTestKey, testKeyStart, Block.reference, hresource, ← hd]
  -- No name of a driver begins with another one and a point.
  cases d <;> simp [Driver.name, List.isPrefixOf]

theorem Resource.ofBlock_isTest {id : String} {b : Block} (hresource : b.id.name = "resource")
    {r : Resource} (h : ofBlock id b = .ok r) : isTestKey r.reference = r.isTest := by
  obtain ⟨_, hblock, d, hd, hkind⟩ := ofBlock_ok h
  rw [reference, hblock, isTestKey_resource hresource (Driver.ofName?_eq_some_iff.mp hd)]
  simp only [isTest]
  rcases Kind.ofFields_ok (Kind.build_ok hkind) with
    ⟨rfl, _, hk, _⟩ | ⟨rfl, _, hk, _⟩ | ⟨hother, ⟨_, hk⟩ | ⟨_, hk⟩⟩
  · simp [hk]
  · simp [hk]
  · simp [hk, hother]
  · simp [hk, hother]

theorem Resource.link_isTest {registry : Registry} {bindings : Bindings} {r linked : Resource}
    (h : r.link registry bindings = (.ok (), linked)) : linked.isTest = r.isTest := by
  simp only [link] at h
  split at h
  · next hkind =>
      split at h
      · cases h
      · obtain ⟨_, rfl⟩ := Prod.mk.inj h
        simp [isTest, hkind]
  · next hkind =>
      obtain ⟨_, rfl⟩ := Prod.mk.inj h
      simp [isTest, hkind]
  · cases h
    rfl

namespace Suite

theorem mem_made {blocks : List (String × Block)} {r : Resource} (h : r ∈ made blocks) :
    ∃ id b, b.id.name = "resource" ∧ Resource.ofBlock id b = .ok r := by
  obtain ⟨⟨id, b⟩, _, hentry⟩ := List.mem_filterMap.mp h
  split at hentry
  · next hresource =>
      refine ⟨id, b, hresource, ?_⟩
      cases hblock : Resource.ofBlock id b <;> simp_all [Except.toOption]
  · cases hentry

/-- Blocks that make no resource have no keys of tests. -/
theorem made_testKeys {blocks : List (String × Block)}
    (h : Faultless Block.Refused (blocks.map Prod.snd)) :
    ((made blocks).map Resource.reference).filter isTestKey =
      ((blocks.map Prod.snd).map Block.reference).filter isTestKey := by
  rw [made_keys h]
  generalize blocks.map Prod.snd = document at h ⊢
  rw [List.filter_map, List.filter_map, List.filter_filter]
  refine congrArg (List.map Block.reference) (List.filter_congr fun b hb => ?_)
  -- A block that is neither a resource nor refused declares a variable.
  by_cases hresource : b.id.name = "resource"
  · simp [hresource]
  · simp [isTestKey_variable (Block.variable_of_faultless (h b hb) hresource)]

variable {config : Config} {ids : Nat → String} {document : Document} {suite : Suite}

theorem load_keys (h : load config ids document = .ok suite) :
    suite.registry.keys = distinct ((made (withIds ids document)).map Resource.reference) := by
  obtain ⟨_, _, hlink⟩ := load_eq_ok_iff.mp h
  rw [Registry.link_keys hlink, survivors_eq, Registry.keys_insertAll_empty]

/-- A resource of a loaded suite was made of a block and has been linked since. -/
theorem load_made (h : load config ids document = .ok suite) {r : Resource}
    (hr : r ∈ suite.registry.resources) :
    ∃ id b s, b.id.name = "resource" ∧ Resource.ofBlock id b = .ok s ∧
      s.link (survivors ids document) suite.globals = (.ok (), r) := by
  obtain ⟨_, _, hlink⟩ := load_eq_ok_iff.mp h
  obtain ⟨s, hs, hlinked⟩ := exists_of_mem_right (Registry.link_ok hlink) hr
  obtain ⟨id, b, hresource, hblock⟩ := mem_made (Registry.mem_of_mem_latest hs)
  exact ⟨id, b, s, hresource, hblock, hlinked⟩

theorem load_isTest (h : load config ids document = .ok suite) {r : Resource}
    (hr : r ∈ suite.registry.resources) : isTestKey r.reference = r.isTest := by
  obtain ⟨_, _, _, hresource, hblock, hlinked⟩ := load_made h hr
  rw [Resource.link_reference hlinked, Resource.link_isTest hlinked,
    Resource.ofBlock_isTest hresource hblock]

theorem tests_keys (h : load config ids document = .ok suite) :
    suite.tests.map Resource.reference = suite.registry.keys.filter isTestKey := by
  rw [Registry.keys, List.filter_map, tests]
  refine congrArg (List.map Resource.reference) (List.filter_congr fun r hr => ?_)
  rw [load_isTest h hr, Bool.and_self, Function.comp_apply, load_isTest h hr]

end Suite

theorem listTests_eq (document : Document) :
    listTests document = distinct ((document.map Block.reference).filter isTestKey) := by
  have hadd : (fun (keys : List String) key =>
      if keys.contains key then keys else keys ++ [key]) = addNew := by
    funext keys key
    simp [addNew]
  rw [listTests, hadd]
  rfl

namespace Suite

variable {config : Config} {ids : Nat → String} {document : Document} {suite : Suite}

theorem tests_eq_listTests (h : load config ids document = .ok suite) :
    suite.tests.map Resource.reference = listTests document := by
  have hblocks := (load_eq_ok_iff.mp h).2.1
  rw [← withIds_blocks ids document] at hblocks
  rw [tests_keys h, load_keys h, distinct_filter, made_testKeys hblocks, withIds_blocks,
    listTests_eq]

theorem matches_iff_listed (h : load config ids document = .ok suite) {key : String} :
    suite.Matches (some key) ↔ key ∈ listTests document := by
  rw [← tests_eq_listTests h, List.mem_map]
  simp only [Matches, Option.some.injEq, forall_eq', tests, List.mem_filter, Bool.and_eq_true]
  refine exists_congr fun test => ?_
  constructor
  · rintro ⟨hmem, htest, rfl⟩
    exact ⟨⟨hmem, (load_isTest h hmem).trans htest, htest⟩, rfl⟩
  · rintro ⟨⟨hmem, _, htest⟩, rfl⟩
    exact ⟨hmem, htest, rfl⟩

theorem selected_keys (h : load config ids document = .ok suite) {key : String}
    (hfilter : suite.Matches (some key)) :
    (suite.selected (some key)).map Resource.reference = [key] := by
  obtain ⟨test, htest⟩ := (matches_some_iff h).mp hfilter
  have hkey := Registry.get?_reference (Option.filter_eq_some_iff.mp htest).1
  simp [selected, htest, hkey]

end Suite

theorem listed_tests_are_run (setup : Setup) (document : Document) (suite : Suite)
    (hload : Suite.load setup.config setup.ids document = .ok suite) :
    (listTests document).Nodup ∧
    (∃ report, ((setup.filtered none).run document).1 = .ok report ∧
      report.executed = listTests document) ∧
    ∀ key,
      (((setup.filtered (some key)).run document).1 ≠ .error (.testNotFound key) ↔
        key ∈ listTests document) ∧
      (key ∈ listTests document →
        ∃ report, ((setup.filtered (some key)).run document).1 = .ok report ∧
          report.executed = [key]) := by
  have htests := Suite.tests_eq_listTests hload
  have hreport : ∀ filter, suite.Matches filter → ((setup.filtered filter).run document).1 =
      .ok (.ofExecutions ((setup.filtered filter).executions suite)) :=
    fun filter hfilter => Setup.run_ok_iff.mpr ⟨suite, hload, hfilter, rfl⟩
  have hexecuted := Suite.executions_keys setup.transport setup.clock suite
  refine ⟨htests ▸ Suite.tests_nodup hload, ?_, fun key => ⟨?_, ?_⟩⟩
  · exact ⟨_, hreport none suite.matches_none, (hexecuted _ _).trans htests⟩
  · rw [← Suite.matches_iff_listed hload]
    constructor
    · intro hfound
      by_contra hfilter
      obtain ⟨_, hkey, hrun⟩ :=
        Suite.run_of_not_matches setup.transport setup.clock hload hfilter .initial
      cases hkey
      rw [(setup.filtered (some key)).run_eq_of_load hload] at hfound
      exact hfound (congrArg Prod.fst hrun)
    · intro hfilter
      rw [hreport _ hfilter]
      exact nofun
  · intro hlisted
    have hfilter := (Suite.matches_iff_listed hload).mpr hlisted
    exact ⟨_, hreport _ hfilter, (hexecuted _ _).trans (Suite.selected_keys hload hfilter)⟩

/-- A test that is declared again keeps its place. -/
theorem sample_listed_tests_are_run :
    listTests (Sample.document ++ [Sample.test "gone"]) =
      [(Sample.test "gone").reference, (Sample.test "now").reference] ∧
    ∃ report, ((Sample.setup.filtered none).run
        (Sample.document ++ [Sample.test "gone"])).1 = .ok report ∧
      report.executed = [(Sample.test "gone").reference, (Sample.test "now").reference] := by
  have hlist : listTests (Sample.document ++ [Sample.test "gone"]) =
      [(Sample.test "gone").reference, (Sample.test "now").reference] := by
    decide +kernel
  have hloads : (Suite.load Sample.setup.config Sample.setup.ids
      (Sample.document ++ [Sample.test "gone"])).isOk = true := by
    decide +kernel
  cases hload : Suite.load Sample.setup.config Sample.setup.ids
      (Sample.document ++ [Sample.test "gone"]) with
  | error e =>
      rw [hload] at hloads
      cases hloads
  | ok suite =>
      obtain ⟨_, ⟨report, hrun, hexecuted⟩, _⟩ :=
        listed_tests_are_run Sample.setup _ suite hload
      exact ⟨hlist, report, hrun, hexecuted.trans hlist⟩

end HttpSuite
