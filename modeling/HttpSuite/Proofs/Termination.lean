import HttpSuite.Proofs.Reports
import HttpSuite.Proofs.Sharing

/-!
Executions without a bound on their levels. A resource performs actions one after the other, and
an action is its own or executes the resource that a link leads to. Where no resource leads back
to itself, what is executed this way comes to its end within as many levels as there are
resources, and it is what `Environment.exec` gives, whatever has been executed before.
-/

namespace HttpSuite

/-- What a resource does at one time: something of its own, or executing another resource. -/
inductive Action where
  | own (run : Run Unit)
  | follow (l : Link)

namespace Environment

variable (env : Environment)

/-- Sends the request of a step and keeps the response. -/
def sendStep (s : Step) : Run Unit := do
  let request ← env.stepRequest s
  let response ← env.send request
  setResponse (some response)

/-- The actions of a resource in order. A step captures before its request and once more after
its assertions. -/
def actions (r : Resource) : List Action :=
  match r.kind with
  | .test steps => steps.map .follow
  | .step s =>
    .own (setResponse none) :: s.captures.map .follow ++
      .own (env.sendStep s) :: s.assertions.map .follow ++ s.captures.map .follow
  | .assertion a => [.own (env.runAssertion r.reference a)]
  | .capture c => [.own (env.runCapture r.reference c)]

/-- Actions that come to their end: the state before them, the deepest nesting of executions in
them, and their outcome with the state after them. The first that fails is the last. -/
inductive Performs : List Action → State → Nat → Except Failure Unit × State → Prop where
  | done (s : State) : Performs [] s 0 (.ok (), s)
  | passes {run : Run Unit} {more : List Action} {s s' : State} {depth : Nat}
      {result : Except Failure Unit × State} (hrun : run s = (.ok (), s'))
      (hmore : Performs more s' depth result) : Performs (.own run :: more) s depth result
  | fails {run : Run Unit} {more : List Action} {s s' : State} {e : Failure}
      (hrun : run s = (.error e, s')) : Performs (.own run :: more) s 0 (.error e, s')
  | unlinked {l : Link} {more : List Action} {s : State} {e : Failure}
      (htarget : l.target? env.registry = .error e) :
      Performs (.follow l :: more) s 0 (.error e, s)
  | returns {l : Link} {more : List Action} {r : Resource} {s s' : State} {inner depth : Nat}
      {result : Except Failure Unit × State} (htarget : l.target? env.registry = .ok r)
      (hinner : Performs (env.actions r) s inner (.ok (), s'))
      (hmore : Performs more s' depth result) :
      Performs (.follow l :: more) s (max (inner + 1) depth) result
  | stops {l : Link} {more : List Action} {r : Resource} {s s' : State} {inner : Nat}
      {e : Failure} (htarget : l.target? env.registry = .ok r)
      (hinner : Performs (env.actions r) s inner (.error e, s')) :
      Performs (.follow l :: more) s (inner + 1) (.error e, s')

/-- An execution that comes to its end. The resource itself is the first level. -/
def Executes (r : Resource) (s : State) (depth : Nat) (result : Except Failure Unit × State) :
    Prop :=
  ∃ inner, depth = inner + 1 ∧ env.Performs (env.actions r) s inner result

variable {env}

/-- There is one way to perform actions. -/
theorem Performs.unique {actions : List Action} {s : State} {depth other : Nat}
    {result result' : Except Failure Unit × State} (h : env.Performs actions s depth result)
    (h' : env.Performs actions s other result') : depth = other ∧ result = result' := by
  induction h generalizing other result' with
  | done s =>
      cases h'
      exact ⟨rfl, rfl⟩
  | passes hrun hmore ih =>
      cases h' with
      | passes hrun' hmore' =>
          rw [hrun] at hrun'
          cases hrun'
          exact ih hmore'
      | fails hrun' => rw [hrun] at hrun'; cases hrun'
  | fails hrun =>
      cases h' with
      | passes hrun' hmore' => rw [hrun] at hrun'; cases hrun'
      | fails hrun' =>
          rw [hrun] at hrun'
          cases hrun'
          exact ⟨rfl, rfl⟩
  | unlinked htarget =>
      cases h' with
      | unlinked htarget' =>
          rw [htarget] at htarget'
          cases htarget'
          exact ⟨rfl, rfl⟩
      | returns htarget' | stops htarget' => rw [htarget] at htarget'; cases htarget'
  | returns htarget hinner hmore ihinner ihmore =>
      cases h' with
      | unlinked htarget' => rw [htarget] at htarget'; cases htarget'
      | returns htarget' hinner' hmore' =>
          rw [htarget] at htarget'
          cases htarget'
          obtain ⟨rfl, hsame⟩ := ihinner hinner'
          cases hsame
          obtain ⟨rfl, rfl⟩ := ihmore hmore'
          exact ⟨rfl, rfl⟩
      | stops htarget' hinner' =>
          rw [htarget] at htarget'
          cases htarget'
          cases (ihinner hinner').2
  | stops htarget hinner ih =>
      cases h' with
      | unlinked htarget' => rw [htarget] at htarget'; cases htarget'
      | returns htarget' hinner' hmore' =>
          rw [htarget] at htarget'
          cases htarget'
          cases (ih hinner').2
      | stops htarget' hinner' =>
          rw [htarget] at htarget'
          cases htarget'
          obtain ⟨rfl, hsame⟩ := ih hinner'
          cases hsame
          exact ⟨rfl, rfl⟩

theorem Executes.unique {r : Resource} {s : State} {depth other : Nat}
    {result result' : Except Failure Unit × State} (h : env.Executes r s depth result)
    (h' : env.Executes r s other result') : depth = other ∧ result = result' := by
  obtain ⟨inner, rfl, hinner⟩ := h
  obtain ⟨inner', rfl, hinner'⟩ := h'
  obtain ⟨rfl, hresult⟩ := hinner.unique hinner'
  exact ⟨rfl, hresult⟩

variable (env)

/-- Performs an action, `exec` executing other resources. -/
def act (exec : Resource → Run Unit) : Action → Run Unit
  | .own run => run
  | .follow l => env.follow exec l

theorem mem_actions {r : Resource} {l : Link} (h : .follow l ∈ env.actions r) : l ∈ r.links := by
  cases hkind : r.kind with
  | step step =>
      have hmem : l ∈ step.captures ∨ l ∈ step.assertions ∨ l ∈ step.captures := by
        simpa [actions, hkind] using h
      simp only [Resource.links, hkind, List.mem_append]
      exact hmem.elim .inr id
  | test steps => simpa [actions, Resource.links, hkind] using h
  | assertion a => simp [actions, hkind] at h
  | capture c => simp [actions, hkind] at h

/-- Executing a resource is performing its actions, with a level less for the other resources. -/
theorem runNested_succ (levels : Nat) (r : Resource) :
    env.runNested (levels + 1) r = (env.actions r).forM (env.act (env.runNested levels)) := by
  rw [runNested.eq_def]
  cases hkind : r.kind with
  | step step =>
      simp only [actions, hkind, runStep_eq, List.forM_eq_forM, List.forM_append, List.forM_cons,
        List.forM_map, act, sendStep, bind_assoc]
  | test steps =>
      simp only [actions, hkind, List.forM_eq_forM, List.forM_map]
      rfl
  | assertion a | capture c =>
      simp only [actions, hkind, List.forM_eq_forM, List.forM_cons, List.forM_nil, act,
        bind_pure_unit]

/-- Actions come to their end if the executions that they ask for do. -/
theorem performs_forM {exec : Resource → Run Unit} {bound : Nat} {actions : List Action}
    (h : ∀ l, .follow l ∈ actions → ∀ r, l.target? env.registry = .ok r →
      ∀ s, ∃ inner < bound, env.Performs (env.actions r) s inner (exec r s)) (s : State) :
    ∃ depth ≤ bound, env.Performs actions s depth (actions.forM (env.act exec) s) := by
  induction actions generalizing s with
  | nil => exact ⟨0, Nat.zero_le _, .done s⟩
  | cons action more ih =>
      have ihmore := ih fun l hl => h l (List.mem_cons_of_mem _ hl)
      rw [Run.forM_cons_apply]
      cases action with
      | own run =>
          simp only [act]
          cases hrun : run s with
          | mk outcome s' =>
              cases outcome with
              | error e => exact ⟨0, Nat.zero_le _, .fails hrun⟩
              | ok u =>
                  obtain ⟨depth, hdepth, hmore⟩ := ihmore s'
                  exact ⟨depth, hdepth, .passes hrun hmore⟩
      | follow l =>
          simp only [act, follow_apply]
          cases htarget : l.target? env.registry with
          | error e => exact ⟨0, Nat.zero_le _, .unlinked htarget⟩
          | ok r =>
              obtain ⟨inner, hinner, hperforms⟩ := h l List.mem_cons_self r htarget s
              simp only
              cases hexec : exec r s with
              | mk outcome s' =>
                  rw [hexec] at hperforms
                  cases outcome with
                  | error e => exact ⟨inner + 1, hinner, .stops htarget hperforms⟩
                  | ok u =>
                      obtain ⟨depth, hdepth, hmore⟩ := ihmore s'
                      exact ⟨max (inner + 1) depth, Nat.max_le.mpr ⟨hinner, hdepth⟩,
                        .returns htarget hperforms hmore⟩

/-- With more levels than resources below it, a resource is executed to its end. -/
theorem performs_runNested (hacyclic : env.registry.Acyclic) (levels : Nat) {r : Resource}
    (hr : r ∈ env.registry.resources) (hlevels : env.registry.below r < levels) (s : State) :
    ∃ inner ≤ env.registry.below r,
      env.Performs (env.actions r) s inner (env.runNested levels r s) := by
  induction levels generalizing r s with
  | zero => exact absurd hlevels (Nat.not_lt_zero _)
  | succ levels ih =>
      -- Each link leads to a resource with fewer below it, so the levels that are left suffice.
      rw [runNested_succ]
      refine env.performs_forM ?_ s
      intro l hl target htarget s'
      have hrefers : env.registry.Refers r target := ⟨hr, l, env.mem_actions hl, htarget⟩
      have hbelow := Registry.below_lt_of_refers hacyclic hrefers
      obtain ⟨inner, hinner, hperforms⟩ := ih hrefers.mem (by omega) s'
      exact ⟨inner, by omega, hperforms⟩

theorem executes_exec (hacyclic : env.registry.Acyclic) {r : Resource}
    (hr : r ∈ env.registry.resources) (s : State) :
    ∃ depth ≤ env.registry.size, env.Executes r s depth (env.exec r s) := by
  have hbelow := Registry.below_lt_size hacyclic hr
  obtain ⟨inner, hinner, hperforms⟩ := env.performs_runNested hacyclic _ hr hbelow s
  exact ⟨inner + 1, by omega, inner, rfl, hperforms⟩

end Environment

namespace Family

variable (transport : Transport) (clock : Clock)

theorem perform_local_registry (family : Family) {op : Operation} (h : op.IsLocal) :
    (family.perform transport clock op).2.registry = family.registry := by
  refine perform_cases transport clock (fun result => result.2.registry = family.registry) op
    ?_ rfl
  intro _
  obtain ⟨f, world, heq⟩ := family.apply_local transport clock h
  rw [heq]
  rfl

theorem after_local_registry {history : List Operation} (h : ∀ op ∈ history, op.IsLocal)
    (family : Family) : (family.after transport clock history).registry = family.registry := by
  induction history generalizing family with
  | nil => rfl
  | cons op more ih =>
      have hmore := ih (List.forall_mem_of_forall_mem_cons h)
      have hop := perform_local_registry transport clock family (h op List.mem_cons_self)
      exact (hmore (family.perform transport clock op).2).trans hop

end Family

theorem acyclic_executions_terminate (transport : Transport) (clock : Clock) (family : Family)
    (hacyclic : family.registry.Acyclic) :
    let env : Environment := { registry := family.registry, transport, clock }
    (∀ r ∈ family.registry.resources, ∀ state : State, ∃ depth ≤ family.registry.size,
      ∀ d result, env.Executes r state d result ↔ d = depth ∧ result = env.exec r state) ∧
    ∀ history : List Family.Operation, (∀ op ∈ history, op.IsLocal) →
      (family.after transport clock history).registry = family.registry := by
  intro env
  refine ⟨?_, ?_⟩
  · intro r hr state
    obtain ⟨depth, hdepth, hexecutes⟩ := env.executes_exec hacyclic hr state
    refine ⟨depth, hdepth, ?_⟩
    intro d result
    constructor
    · intro h
      exact h.unique hexecutes
    · intro h
      rw [h.1, h.2]
      exact hexecutes
  · intro history hlocal
    exact Family.after_local_registry transport clock hlocal family

/-- The first test fails, which leaves the resources that the second executes. -/
theorem sample_executions_terminate :
    Suite.load Sample.setup.config Sample.setup.ids Sample.document = .ok Sample.suite ∧
    Sample.suite.registry.Acyclic ∧
    (∃ depth ≤ 6, ∃ final,
      (Sample.suite.environment Sample.setup.transport Sample.setup.clock).Executes
        ⟨"6", Sample.test "now", Sample.testKind "now" "4"⟩
        { Sample.suite.loaded, World.initial with } depth (.ok (), final)) ∧
    ((Family.ofSuite Sample.suite).after Sample.setup.transport Sample.setup.clock
        [.exec 0 ⟨"5", Sample.test "gone", Sample.testKind "gone" "3"⟩]).registry =
      Sample.suite.registry := by
  have hacyclic : Sample.suite.registry.Acyclic := by
    apply Registry.Acyclic.of_rank fun r => if r.isTest then 3 else r.links.length
    decide +kernel
  let env := Sample.suite.environment Sample.setup.transport Sample.setup.clock
  let now : Resource := ⟨"6", Sample.test "now", Sample.testKind "now" "4"⟩
  let state : State := { Sample.suite.loaded, World.initial with }
  have hnow : now ∈ Sample.suite.registry.resources := by decide +kernel
  have houtcome : (env.exec now state).1 = .ok () := by decide +kernel
  obtain ⟨hexecutes, hregistry⟩ :=
    acyclic_executions_terminate Sample.setup.transport Sample.setup.clock
      (.ofSuite Sample.suite) hacyclic
  obtain ⟨depth, hdepth, hresult⟩ := hexecutes now hnow state
  have hfinal : env.Executes now state depth (.ok (), (env.exec now state).2) :=
    (hresult _ _).mpr ⟨rfl, Prod.ext houtcome.symm rfl⟩
  refine ⟨Sample.load_document, hacyclic, ⟨depth, hdepth, _, hfinal⟩, hregistry _ ?_⟩
  exact List.forall_mem_singleton.mpr trivial

end HttpSuite
