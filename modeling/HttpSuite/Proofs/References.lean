import HttpSuite.Proofs.Execution
import HttpSuite.Proofs.Linking
import Mathlib.Data.Finset.Card
import Mathlib.Data.Finset.Filter
import Mathlib.Logic.Relation

/-!
The graph of references between resources. A chain of references without a cycle passes through
each registered resource at most once, so the resources below another are fewer with each link
that is followed, and an execution never nests deeper than the registry is large. Where every
link leads to a resource as well, an execution fails only for what a test can be wrong about.
-/

namespace HttpSuite

/-- A failure of an execution: a template without a value, an assertion that does not hold, a
capture without a value, or an exchange that has failed. -/
def Failure.IsRuntime : Failure → Prop
  | template .. | assertion .. | capture .. | transport _ => True
  | _ => False

/-- What a link leads to is registered. -/
theorem Link.target?_mem {registry : Registry} {l : Link} {target : Resource}
    (h : l.target? registry = .ok target) : target ∈ registry.resources := by
  simp only [Link.target?] at h
  split at h
  · next t ht =>
      cases h
      obtain ⟨handle, _, hholder⟩ := Option.bind_eq_some_iff.mp ht
      exact Registry.get?_mem (Registry.holder?_eq_some hholder).1
  · cases h

namespace Registry

/-- A registered resource has a link that leads to another. -/
def Refers (registry : Registry) (r s : Resource) : Prop :=
  r ∈ registry.resources ∧ ∃ l ∈ r.links, l.target? registry = .ok s

/-- No resource leads back to itself. -/
def Acyclic (registry : Registry) : Prop :=
  ∀ r, ¬ Relation.TransGen registry.Refers r r

/-- Every link of a registered resource leads to a resource. -/
def Linked (registry : Registry) : Prop :=
  ∀ r ∈ registry.resources, ∀ l ∈ r.links, ∃ target, l.target? registry = .ok target

theorem Refers.mem {registry : Registry} {r s : Resource} (h : registry.Refers r s) :
    s ∈ registry.resources := by
  obtain ⟨_, l, _, htarget⟩ := h
  exact Link.target?_mem htarget

theorem Linked.of_isOk {registry : Registry}
    (h : ∀ r ∈ registry.resources, ∀ l ∈ r.links, (l.target? registry).isOk = true) :
    registry.Linked := by
  intro r hr l hl
  have hok := h r hr l hl
  cases htarget : l.target? registry with
  | error e => rw [htarget] at hok; cases hok
  | ok target => exact ⟨target, rfl⟩

/-- A rank that falls along each link excludes cycles. -/
theorem Acyclic.of_rank {registry : Registry} (rank : Resource → Nat)
    (h : ∀ r ∈ registry.resources, ∀ l ∈ r.links,
      ((l.target? registry).toOption.all fun s => rank s < rank r) = true) :
    registry.Acyclic := by
  have hstep : ∀ r s, registry.Refers r s → rank s < rank r := by
    rintro r s ⟨hr, l, hl, htarget⟩
    have hrank := h r hr l hl
    rw [htarget] at hrank
    exact of_decide_eq_true hrank
  intro r hcycle
  have hfalls : ∀ s, Relation.TransGen registry.Refers r s → rank s < rank r := by
    intro s hs
    induction hs with
    | single hrefers => exact hstep _ _ hrefers
    | tail _ hrefers ih => exact Nat.lt_trans (hstep _ _ hrefers) ih
  exact Nat.lt_irrefl _ (hfalls r hcycle)

open Classical in
/-- The number of registered resources that a resource leads to. -/
noncomputable def below (registry : Registry) (r : Resource) : Nat :=
  (registry.resources.toFinset.filter (Relation.TransGen registry.Refers r)).card

theorem below_lt_of_refers {registry : Registry} (hacyclic : registry.Acyclic) {r s : Resource}
    (h : registry.Refers r s) : registry.below s < registry.below r := by
  classical
  apply Finset.card_lt_card
  refine ⟨?_, ?_⟩
  · intro t ht
    rw [Finset.mem_filter] at ht ⊢
    exact ⟨ht.1, .head h ht.2⟩
  · intro hsub
    have hs := hsub (Finset.mem_filter.mpr ⟨List.mem_toFinset.mpr h.mem, .single h⟩)
    exact hacyclic s (Finset.mem_filter.mp hs).2

theorem below_lt_size {registry : Registry} (hacyclic : registry.Acyclic) {r : Resource}
    (hr : r ∈ registry.resources) : registry.below r < registry.size := by
  classical
  refine Nat.lt_of_lt_of_le ?_ (List.toFinset_card_le registry.resources)
  apply Finset.card_lt_card
  refine ⟨Finset.filter_subset _ _, ?_⟩
  intro hsub
  exact hacyclic r (Finset.mem_filter.mp (hsub (List.mem_toFinset.mpr hr))).2

end Registry

theorem Template.Scope.evaluate_failsOnly (scope : Template.Scope) (text : String) :
    FailsOnly Failure.IsRuntime (scope.evaluate text) := by
  simp only [evaluate]
  split
  · exact .error trivial
  · exact .ok _

theorem Assertion.judge_failsOnly (reference : String) (response : Option Response)
    (check : Response → Verdict) :
    FailsOnly Failure.IsRuntime (judge reference response check) := by
  simp only [judge]
  split
  · exact .error trivial
  · split
    · exact .error trivial
    · exact .ok _

theorem Assertion.check_failsOnly (scope : Template.Scope) (response : Option Response)
    (reference : String) (a : Assertion) :
    FailsOnly Failure.IsRuntime (a.check scope response reference) := by
  cases a with
  | general subject property comparison target =>
      refine .bind (scope.evaluate_failsOnly target) fun _ => ?_
      exact .bind (scope.evaluate_failsOnly property) fun _ => judge_failsOnly _ _ _
  | statusCode equals =>
      exact .bind (scope.evaluate_failsOnly equals) fun _ => judge_failsOnly _ _ _
  | body equals =>
      exact .bind (scope.evaluate_failsOnly equals) fun _ => judge_failsOnly _ _ _

theorem Capture.fieldText_failsOnly (reference : String) (numericType : NumericType)
    (response : Response) (path : String) :
    FailsOnly Failure.IsRuntime (fieldText reference numericType response path) := by
  simp only [fieldText]
  split
  · exact .error trivial
  · exact .ok _

theorem Capture.assignment_failsOnly (scope : Template.Scope) (response : Option Response)
    (now : Instant) (reference : String) (c : Capture) :
    FailsOnly Failure.IsRuntime (c.assignment scope response now reference) := by
  cases c with
  | response source property into numericType =>
      cases response with
      | none => exact .ok _
      | some response =>
          refine .bind (scope.evaluate_failsOnly into) fun _ => ?_
          refine .bind (scope.evaluate_failsOnly property) fun _ => ?_
          cases source with
          | header => exact .ok _
          | jsonBody => exact .bind (fieldText_failsOnly _ _ _ _) fun _ => .ok _
  | time into format =>
      cases response with
      | none => exact .bind (scope.evaluate_failsOnly into) fun _ => .ok _
      | some _ => exact .ok _
  | outletHeader source into =>
      cases response with
      | none => exact .ok _
      | some response =>
          refine .bind (scope.evaluate_failsOnly source) fun _ => ?_
          exact .bind (scope.evaluate_failsOnly into) fun _ => .ok _
  | outletJsonField path into numericType =>
      cases response with
      | none => exact .ok _
      | some response =>
          refine .bind (scope.evaluate_failsOnly path) fun _ => ?_
          refine .bind (scope.evaluate_failsOnly into) fun _ => ?_
          exact .bind (fieldText_failsOnly _ _ _ _) fun _ => .ok _

theorem Step.evaluateHeaders_failsOnly (scope : Template.Scope) (headers : Headers)
    (given : List (String × String)) :
    FailsOnly Failure.IsRuntime (evaluateHeaders scope headers given) := by
  induction given generalizing headers with
  | nil => exact .ok _
  | cons header more ih =>
      refine .bind (scope.evaluate_failsOnly header.1) fun _ => ?_
      exact .bind (scope.evaluate_failsOnly header.2) fun _ => ih _

theorem Step.request_failsOnly (scope : Template.Scope) (s : Step) :
    FailsOnly Failure.IsRuntime (s.request scope) := by
  refine .bind (scope.evaluate_failsOnly s.method) fun _ => ?_
  refine .bind (scope.evaluate_failsOnly s.url) fun _ => ?_
  refine .bind (scope.evaluate_failsOnly s.body) fun _ => ?_
  exact .bind (evaluateHeaders_failsOnly scope [] s.headers) fun _ => .ok _

namespace Environment

variable (env : Environment)

theorem runAssertion_failsOnly (reference : String) (a : Assertion) :
    Run.FailsOnly Failure.IsRuntime (env.runAssertion reference a) := by
  intro s
  rw [runAssertion_apply]
  exact a.check_failsOnly _ _ reference

theorem runCapture_failsOnly (reference : String) (c : Capture) :
    Run.FailsOnly Failure.IsRuntime (env.runCapture reference c) := by
  intro s
  rw [runCapture_apply]
  have hassignment :=
    c.assignment_failsOnly (env.scope s) s.response (env.clock s.captured) reference
  split
  · next e he => exact .error (hassignment e he)
  · exact .ok _
  · exact .ok _

theorem send_failsOnly (request : Request) :
    Run.FailsOnly Failure.IsRuntime (env.send request) := by
  intro s
  rw [send_apply]
  split
  · exact .error trivial
  · exact .ok _

theorem stepRequest_failsOnly (step : Step) :
    Run.FailsOnly Failure.IsRuntime (env.stepRequest step) := by
  intro s
  rw [stepRequest_apply]
  exact step.request_failsOnly _

theorem follow_failsOnly {kind : Failure → Prop} {exec : Resource → Run Unit} {l : Link}
    {target : Resource} (htarget : l.target? env.registry = .ok target)
    (hexec : Run.FailsOnly kind (exec target)) : Run.FailsOnly kind (env.follow exec l) := by
  intro s
  rw [follow_apply, htarget]
  exact hexec s

theorem runStep_failsOnly {exec : Resource → Run Unit} {s : Step}
    (hfollow : ∀ l ∈ s.assertions ++ s.captures,
      Run.FailsOnly Failure.IsRuntime (env.follow exec l)) :
    Run.FailsOnly Failure.IsRuntime (env.runStep exec s) := by
  have hassertions : Run.FailsOnly Failure.IsRuntime (s.assertions.forM (env.follow exec)) :=
    .forM fun l hl => hfollow l (List.mem_append_left _ hl)
  have hcaptures : Run.FailsOnly Failure.IsRuntime (s.captures.forM (env.follow exec)) :=
    .forM fun l hl => hfollow l (List.mem_append_right _ hl)
  rw [runStep_eq]
  refine .bind (fun _ => .ok _) fun _ => ?_
  refine .bind hcaptures fun _ => ?_
  refine .bind (env.stepRequest_failsOnly s) fun request => ?_
  refine .bind (env.send_failsOnly request) fun _ => ?_
  refine .bind (fun _ => .ok _) fun _ => ?_
  exact .bind hassertions fun _ => hcaptures

/-- The levels that are left bound the resources below the one that is executed. -/
theorem runNested_failsOnly (hlinked : env.registry.Linked) (hacyclic : env.registry.Acyclic)
    (levels : Nat) {r : Resource} (hr : r ∈ env.registry.resources)
    (hlevels : env.registry.below r < levels) :
    Run.FailsOnly Failure.IsRuntime (env.runNested levels r) := by
  induction levels generalizing r with
  | zero => exact absurd hlevels (Nat.not_lt_zero _)
  | succ levels ih =>
      have hfollow : ∀ l ∈ r.links,
          Run.FailsOnly Failure.IsRuntime (env.follow (env.runNested levels) l) := by
        intro l hl
        obtain ⟨target, htarget⟩ := hlinked r hr l hl
        have hrefers : env.registry.Refers r target := ⟨hr, l, hl, htarget⟩
        have hbelow := Registry.below_lt_of_refers hacyclic hrefers
        exact env.follow_failsOnly htarget (ih hrefers.mem (by omega))
      simp only [Resource.links] at hfollow
      unfold runNested
      cases hkind : r.kind with
      | step s =>
          rw [hkind] at hfollow
          exact env.runStep_failsOnly hfollow
      | test steps =>
          rw [hkind] at hfollow
          exact .forM hfollow
      | assertion a => exact env.runAssertion_failsOnly r.reference a
      | capture c => exact env.runCapture_failsOnly r.reference c

theorem exec_failsOnly (hlinked : env.registry.Linked) (hacyclic : env.registry.Acyclic)
    {r : Resource} (hr : r ∈ env.registry.resources) :
    Run.FailsOnly Failure.IsRuntime (env.exec r) :=
  env.runNested_failsOnly hlinked hacyclic _ hr (Registry.below_lt_size hacyclic hr)

end Environment
end HttpSuite
