import HttpSuite.Proofs.Phases
import HttpSuite.Proofs.Termination

/-!
Tests inside tests. A test executes what its links lead to one after the other up to the first
failure, so a link to a nested test does what the links of that test do in its place. With all
nested tests replaced in this way there is left a flat list of other resources, and the test runs
as this list does.
-/

namespace HttpSuite

theorem Resource.isTest_iff {r : Resource} :
    r.isTest = true ↔ ∃ steps, r.kind = .test steps := by
  cases hkind : r.kind <;> simp [isTest, hkind]

namespace Registry

/-- The resources other than tests that links lead to, through nested tests and in order. -/
inductive Flattens (registry : Registry) : List Link → List Resource → Prop where
  | nil : registry.Flattens [] []
  | resource {l : Link} {more : List Link} {r : Resource} {flat : List Resource}
      (htarget : l.target? registry = .ok r) (hkind : r.isTest = false)
      (hmore : registry.Flattens more flat) : registry.Flattens (l :: more) (r :: flat)
  | test {l : Link} {steps more : List Link} {r : Resource} {inner flat : List Resource}
      (htarget : l.target? registry = .ok r) (hkind : r.kind = .test steps)
      (hinner : registry.Flattens steps inner) (hmore : registry.Flattens more flat) :
      registry.Flattens (l :: more) (inner ++ flat)

variable {registry : Registry}

theorem Flattens.unique {links : List Link} {flat other : List Resource}
    (h : registry.Flattens links flat) (h' : registry.Flattens links other) : other = flat := by
  induction h generalizing other with
  | nil =>
      cases h'
      rfl
  | resource htarget hkind hmore ih =>
      cases h' with
      | resource htarget' _ hmore' =>
          rw [htarget] at htarget'
          cases htarget'
          rw [ih hmore']
      | test htarget' hkind' =>
          rw [htarget] at htarget'
          cases htarget'
          rw [Resource.isTest_iff.mpr ⟨_, hkind'⟩] at hkind
          cases hkind
  | test htarget hkind hinner hmore ihinner ihmore =>
      cases h' with
      | resource htarget' hkind' =>
          rw [htarget] at htarget'
          cases htarget'
          rw [Resource.isTest_iff.mpr ⟨_, hkind⟩] at hkind'
          cases hkind'
      | test htarget' hkind' hinner' hmore' =>
          rw [htarget] at htarget'
          cases htarget'
          rw [hkind] at hkind'
          cases hkind'
          rw [ihinner hinner', ihmore hmore']

theorem Flattens.mem {links : List Link} {flat : List Resource}
    (h : registry.Flattens links flat) :
    ∀ r ∈ flat, r ∈ registry.resources ∧ r.isTest = false := by
  induction h with
  | nil => exact List.forall_mem_nil _
  | resource htarget hkind _ ih =>
      exact List.forall_mem_cons.mpr ⟨⟨Link.target?_mem htarget, hkind⟩, ih⟩
  | test _ _ _ _ ihinner ihmore => exact List.forall_mem_append.mpr ⟨ihinner, ihmore⟩

/-- Where links lead somewhere and no resource leads back to itself, nested tests come to an end:
there are fewer resources below each of them than below the test around it. -/
theorem exists_flattens (hacyclic : registry.Acyclic) (hlinked : registry.Linked) (bound : Nat)
    {links : List Link}
    (h : ∀ l ∈ links, ∃ target, l.target? registry = .ok target ∧ registry.below target < bound) :
    ∃ flat, registry.Flattens links flat := by
  induction bound generalizing links with
  | zero =>
      cases links with
      | nil => exact ⟨[], .nil⟩
      | cons l more =>
          obtain ⟨_, _, hbelow⟩ := h l List.mem_cons_self
          exact absurd hbelow (Nat.not_lt_zero _)
  | succ bound ih =>
      induction links with
      | nil => exact ⟨[], .nil⟩
      | cons l more ihmore =>
          obtain ⟨target, htarget, hbelow⟩ := h l List.mem_cons_self
          obtain ⟨flat, hflat⟩ := ihmore fun l hl => h l (List.mem_cons_of_mem _ hl)
          cases htest : target.isTest with
          | false => exact ⟨target :: flat, .resource htarget htest hflat⟩
          | true =>
              obtain ⟨steps, hkind⟩ := Resource.isTest_iff.mp htest
              have hmem := Link.target?_mem htarget
              have hsteps : ∀ l ∈ steps, ∃ target, l.target? registry = .ok target ∧
                  registry.below target < bound := by
                intro l hl
                have hlink : l ∈ target.links := by rwa [Resource.links, hkind]
                obtain ⟨next, hnext⟩ := hlinked target hmem l hlink
                have hfalls := below_lt_of_refers hacyclic ⟨hmem, l, hlink, hnext⟩
                exact ⟨next, hnext, by omega⟩
              obtain ⟨inner, hinner⟩ := ih hsteps
              exact ⟨inner ++ flat, .test htarget hkind hinner hflat⟩

end Registry

namespace Environment

variable (env : Environment)

/-- A resource that is executed to its end with so many levels: there is one level for each
registered resource, and one more for a resource that is not registered itself. -/
inductive Completes (levels : Nat) (r : Resource) : Prop where
  | registered (hr : r ∈ env.registry.resources) (hlevels : env.registry.size ≤ levels)
  | linked (hlinks : ∀ l ∈ r.links, ∃ target, l.target? env.registry = .ok target)
      (hlevels : env.registry.size < levels)

/-- Resources executed in order up to and including the first that fails. -/
inductive RunsInOrder : List Resource → State → Except Failure Unit × State → Prop where
  | done (s : State) : RunsInOrder [] s (.ok (), s)
  | passes {r : Resource} {more : List Resource} {s s' : State}
      {result : Except Failure Unit × State} (hrun : env.exec r s = (.ok (), s'))
      (hmore : RunsInOrder more s' result) : RunsInOrder (r :: more) s result
  | fails {r : Resource} {more : List Resource} {s s' : State} {e : Failure}
      (hrun : env.exec r s = (.error e, s')) : RunsInOrder (r :: more) s (.error e, s')

theorem runsInOrder_forM (flat : List Resource) (s : State) :
    env.RunsInOrder flat s (flat.forM env.exec s) := by
  induction flat generalizing s with
  | nil => exact .done s
  | cons r more ih =>
      rw [Run.forM_cons_apply]
      cases hrun : env.exec r s with
      | mk outcome s' =>
          cases outcome with
          | error e => exact .fails hrun
          | ok u => exact .passes hrun (ih s')

variable {env}

/-- What stands behind the resource that fails has no part in the run. -/
theorem RunsInOrder.split {flat : List Resource} {s : State} {result : Except Failure Unit × State}
    (h : env.RunsInOrder flat s result) {e : Failure} (hfails : result.1 = .error e) :
    ∃ passing failing skipped between, flat = passing ++ failing :: skipped ∧
      env.RunsInOrder passing s (.ok (), between) ∧ env.exec failing between = result := by
  induction h with
  | done s => cases hfails
  | fails hrun => exact ⟨[], _, _, _, rfl, .done _, hrun⟩
  | passes hrun _ ih =>
      obtain ⟨passing, failing, skipped, between, rfl, hpassing, hfailing⟩ := ih hfails
      exact ⟨_ :: passing, failing, skipped, between, rfl, .passes hrun hpassing, hfailing⟩

variable (hacyclic : env.registry.Acyclic)

include hacyclic

theorem Completes.flattens (hlinked : env.registry.Linked) {r : Resource} {steps : List Link}
    {levels : Nat} (hcompletes : env.Completes levels r) (hkind : r.kind = .test steps) :
    ∃ flat, env.registry.Flattens steps flat := by
  refine Registry.exists_flattens hacyclic hlinked env.registry.size fun l hl => ?_
  have hlink : l ∈ r.links := by rwa [Resource.links, hkind]
  obtain ⟨target, htarget⟩ : ∃ target, l.target? env.registry = .ok target := by
    cases hcompletes with
    | registered hr _ => exact hlinked r hr l hlink
    | linked hlinks _ => exact hlinks l hlink
  exact ⟨target, htarget, Registry.below_lt_size hacyclic (Link.target?_mem htarget)⟩

/-- More levels than resources below a registered one do not change its execution. -/
theorem runNested_eq_exec {r : Resource} (hr : r ∈ env.registry.resources) {levels : Nat}
    (hlevels : env.registry.below r < levels) : env.runNested levels r = env.exec r := by
  funext s
  obtain ⟨_, _, hnested⟩ := env.performs_runNested hacyclic levels hr hlevels s
  obtain ⟨_, _, hexec⟩ :=
    env.performs_runNested hacyclic _ hr (Registry.below_lt_size hacyclic hr) s
  exact (hnested.unique hexec).2

/-- A test executes what its links lead to. -/
theorem runNested_test {r : Resource} {steps : List Link} {levels : Nat}
    (hcompletes : env.Completes levels r) (hkind : r.kind = .test steps) :
    env.runNested levels r = steps.forM (env.follow env.exec) := by
  obtain ⟨n, rfl⟩ : ∃ n, levels = n + 1 := by
    refine Nat.exists_eq_add_one.mpr ?_
    cases hcompletes with
    | registered hr hlevels => exact Nat.lt_of_lt_of_le (List.length_pos_of_mem hr) hlevels
    | linked _ hlevels => exact Nat.zero_lt_of_lt hlevels
  -- One level is the test's own; the others suffice for what its links lead to.
  have hbelow : ∀ l ∈ steps, ∀ target, l.target? env.registry = .ok target →
      env.registry.below target < n := by
    intro l hl target htarget
    have hsize := Registry.below_lt_size hacyclic (Link.target?_mem htarget)
    cases hcompletes with
    | registered hr hlevels =>
        have hlink : l ∈ r.links := by rwa [Resource.links, hkind]
        have hfalls := Registry.below_lt_of_refers hacyclic ⟨hr, l, hlink, htarget⟩
        have hr := Registry.below_lt_size hacyclic hr
        omega
    | linked _ hlevels => omega
  have htest : env.runNested (n + 1) r = steps.forM (env.follow (env.runNested n)) := by
    rw [runNested.eq_def, hkind]
  rw [htest]
  refine Run.forM_congr fun l hl => ?_
  funext s
  rw [follow_apply, follow_apply]
  cases htarget : l.target? env.registry with
  | error e => rfl
  | ok target =>
      exact congrFun (runNested_eq_exec hacyclic (Link.target?_mem htarget)
        (hbelow l hl target htarget)) s

theorem exec_test {r : Resource} {steps : List Link} (hr : r ∈ env.registry.resources)
    (hkind : r.kind = .test steps) : env.exec r = steps.forM (env.follow env.exec) :=
  runNested_test hacyclic (.registered hr (le_refl _)) hkind

/-- The steps of a nested test can stand in its place. -/
theorem forM_splice {l : Link} {nested : Resource} {inner : List Link}
    (htarget : l.target? env.registry = .ok nested) (hkind : nested.kind = .test inner)
    (before after : List Link) :
    (before ++ l :: after).forM (env.follow env.exec) =
      (before ++ inner ++ after).forM (env.follow env.exec) := by
  have hnested := exec_test hacyclic (Link.target?_mem htarget) hkind
  simp only [List.forM_eq_forM, List.forM_append, List.forM_cons] at hnested ⊢
  rw [follow_of_target? htarget, hnested, bind_assoc]

theorem forM_flattens {links : List Link} {flat : List Resource}
    (h : env.registry.Flattens links flat) :
    links.forM (env.follow env.exec) = flat.forM env.exec := by
  induction h with
  | nil => rfl
  | resource htarget _ _ ih =>
      simp only [List.forM_eq_forM, List.forM_cons] at ih ⊢
      rw [follow_of_target? htarget, ih]
  | test htarget hkind _ _ ihinner ihmore =>
      have htest := exec_test hacyclic (Link.target?_mem htarget) hkind
      simp only [List.forM_eq_forM, List.forM_cons, List.forM_append] at htest ihinner ihmore ⊢
      rw [follow_of_target? htarget, htest, ihinner, ihmore]

end Environment

/-- `Environment.exec` executes a resource with as many levels as resources are registered. -/
theorem nested_tests_flatten (env : Environment) (hacyclic : env.registry.Acyclic)
    (hlinked : env.registry.Linked) :
    (∀ (r r' nested : Resource) (levels levels' : Nat) (before inner after : List Link) (l : Link),
      env.Completes levels r → env.Completes levels' r' →
      r.kind = .test (before ++ l :: after) → r'.kind = .test (before ++ inner ++ after) →
      l.target? env.registry = .ok nested → nested.kind = .test inner →
      ∀ s, env.runNested levels r s = env.runNested levels' r' s) ∧
    (∀ (r : Resource) (levels : Nat) (steps : List Link),
      env.Completes levels r → r.kind = .test steps →
      ∃ flat, env.registry.Flattens steps flat ∧
        (∀ other, env.registry.Flattens steps other → other = flat) ∧
        (∀ x ∈ flat, x ∈ env.registry.resources ∧ x.isTest = false) ∧
        ∀ s, env.RunsInOrder flat s (env.runNested levels r s) ∧
          ∀ e, (env.runNested levels r s).1 = .error e →
            ∃ passing failing skipped between, flat = passing ++ failing :: skipped ∧
              env.RunsInOrder passing s (.ok (), between) ∧
              env.exec failing between = env.runNested levels r s) ∧
    ∀ (r r' : Resource) (levels levels' : Nat) (steps steps' : List Link) (flat : List Resource),
      env.Completes levels r → env.Completes levels' r' →
      r.kind = .test steps → r'.kind = .test steps' →
      env.registry.Flattens steps flat → env.registry.Flattens steps' flat →
      ∀ s, env.runNested levels r s = env.runNested levels' r' s := by
  have htest : ∀ (r : Resource) (levels : Nat) (steps : List Link), env.Completes levels r →
      r.kind = .test steps → env.runNested levels r = steps.forM (env.follow env.exec) :=
    fun _ _ _ => Environment.runNested_test hacyclic
  refine ⟨?_, ?_, ?_⟩
  · intro r r' nested levels levels' before inner after l hr hr' hkind hkind' htarget hnested s
    rw [htest r _ _ hr hkind, htest r' _ _ hr' hkind',
      Environment.forM_splice hacyclic htarget hnested]
  · intro r levels steps hr hkind
    obtain ⟨flat, hflat⟩ := Environment.Completes.flattens hacyclic hlinked hr hkind
    refine ⟨flat, hflat, fun other => hflat.unique, hflat.mem, fun s => ?_⟩
    have hrun : env.RunsInOrder flat s (env.runNested levels r s) := by
      rw [htest r _ _ hr hkind, Environment.forM_flattens hacyclic hflat]
      exact env.runsInOrder_forM flat s
    exact ⟨hrun, fun e he => hrun.split he⟩
  · intro r r' levels levels' steps steps' flat hr hr' hkind hkind' hflat hflat' s
    rw [htest r _ _ hr hkind, htest r' _ _ hr' hkind', Environment.forM_flattens hacyclic hflat,
      Environment.forM_flattens hacyclic hflat']

/-- The test `straight` does at once what `outer` does through `nested` and `inner`; both stop at
the assertion, after one of their two requests. -/
theorem sample_nested_tests_flatten :
    let now := Resource.bare "1" "system_variable" "now" (.capture (.time "now" .unix))
    let page := Resource.bare "2" "http_step" "page" (.step ⟨"GET", "http://a", "", [], [], []⟩)
    let gone := Resource.bare "3" "http_assertion_body" "gone" (.assertion (.body "gone"))
    let inner := Resource.bare "4" "http_test" "inner" (.test [.to page])
    let nested := Resource.bare "5" "http_test" "nested" (.test [.to now, .to inner])
    let outer := Resource.bare "6" "http_test" "outer"
      (.test ([.to now] ++ .to nested :: [.to gone, .to page]))
    let straight := Resource.bare "7" "http_test" "straight"
      (.test ([.to now] ++ [.to now, .to inner] ++ [.to gone, .to page]))
    let env : Environment :=
      { registry := ⟨[now, page, gone, inner, nested, outer, straight]⟩
        transport := fun _ _ => .ok ⟨200, [], []⟩
        clock := fun n => ⟨n, 0⟩ }
    let s : State := { Context.blank, World.initial with }
    env.registry.Acyclic ∧ env.registry.Linked ∧ env.exec outer s = env.exec straight s ∧
      env.RunsInOrder [now, now, page, gone, page] s (env.exec outer s) ∧
      (env.exec straight s).1.isOk = false ∧
      (env.exec straight s).2.sent = [⟨"GET", "http://a", [], ""⟩] ∧
      (env.exec straight s).2.bindings = ⟨[("now", "1")]⟩ := by
  intro now page gone inner nested outer straight env s
  have hacyclic : env.registry.Acyclic := by
    apply Registry.Acyclic.of_rank fun r => if r.isTest then r.links.length + 1 else 0
    decide +kernel
  have hlinked : env.registry.Linked := Registry.Linked.of_isOk (by decide +kernel)
  have houter : env.Completes env.registry.size outer :=
    .registered (by decide +kernel) (le_refl _)
  have hstraight : env.Completes env.registry.size straight :=
    .registered (by decide +kernel) (le_refl _)
  have hnow : (Link.to now).target? env.registry = .ok now := by decide +kernel
  have hpage : (Link.to page).target? env.registry = .ok page := by decide +kernel
  have hgone : (Link.to gone).target? env.registry = .ok gone := by decide +kernel
  have hinner : (Link.to inner).target? env.registry = .ok inner := by decide +kernel
  have hnested : (Link.to nested).target? env.registry = .ok nested := by decide +kernel
  have hflattens : env.registry.Flattens [.to now, .to nested, .to gone, .to page]
      [now, now, page, gone, page] :=
    .resource hnow rfl (.test hnested rfl
      (.resource hnow rfl (.test hinner rfl (.resource hpage rfl .nil) .nil))
      (.resource hgone rfl (.resource hpage rfl .nil)))
  obtain ⟨hsplice, hflat, _⟩ := nested_tests_flatten env hacyclic hlinked
  obtain ⟨flat, _, hunique, _, hruns⟩ := hflat outer _ _ houter rfl
  cases hunique _ hflattens
  refine ⟨hacyclic, hlinked, ?_, (hruns s).1, by decide +kernel, by decide +kernel,
    by decide +kernel⟩
  exact hsplice _ _ _ _ _ _ _ _ _ houter hstraight rfl rfl hnested rfl s

end HttpSuite
