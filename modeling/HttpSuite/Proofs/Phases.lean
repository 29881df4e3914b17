import HttpSuite.Proofs.Execution
import HttpSuite.Proofs.Tables

/-!
The phases of a step whose links lead to assertions and captures. The time is captured before the
request and the response after the assertions, so the request and the assertions see the variables
of the first phase, and each way to fail leaves what the phases before it have made.
-/

namespace HttpSuite

/-- Captures the time, and nothing once there is a response. -/
def Capture.isTime : Capture → Bool
  | .time _ _ => true
  | .response _ _ _ _ | .outletHeader _ _ | .outletJsonField _ _ _ => false

theorem Capture.assignment_none {c : Capture} (h : c.isTime = false) (scope : Template.Scope)
    (now : Instant) (reference : String) : c.assignment scope none now reference = .ok none := by
  cases c with
  | time into format => cases h
  | _ => rfl

theorem Capture.assignment_some {c : Capture} (h : c.isTime = true) (scope : Template.Scope)
    (response : Response) (now : Instant) (reference : String) :
    c.assignment scope (some response) now reference = .ok none := by
  cases c with
  | time into format => rfl
  | _ => cases h

def Kind.capture? : Kind → Option Capture
  | .capture c => some c
  | .assertion _ | .step _ | .test _ => none

def Kind.assertion? : Kind → Option Assertion
  | .assertion a => some a
  | .capture _ | .step _ | .test _ => none

/-- What captures change: the variables, and the number of values captured so far. -/
structure Memory where
  bindings : Bindings
  captured : Nat
  deriving DecidableEq

namespace State

def memory (s : State) : Memory :=
  { bindings := s.bindings, captured := s.captured }

def remember (s : State) (m : Memory) : State :=
  { s with bindings := m.bindings, captured := m.captured }

end State

namespace Environment

variable (env : Environment)

/-- What links lead to, with the keys of the resources. -/
def targets {α : Type} (select : Kind → Option α) (links : List Link) : List (String × α) :=
  links.filterMap fun l =>
    match l.target? env.registry with
    | .ok r => (select r.kind).map fun a => (r.reference, a)
    | .error _ => none

/-- The captures that links lead to. -/
def captures (links : List Link) : List (String × Capture) :=
  env.targets Kind.capture? links

/-- The assertions that links lead to. -/
def assertions (links : List Link) : List (String × Assertion) :=
  env.targets Kind.assertion? links

theorem targets_cons {α : Type} {select : Kind → Option α} {l : Link} {r : Resource} {a : α}
    (htarget : l.target? env.registry = .ok r) (hselect : select r.kind = some a)
    (more : List Link) :
    env.targets select (l :: more) = (r.reference, a) :: env.targets select more := by
  simp only [targets, List.filterMap_cons, htarget, hselect, Option.map_some]

/-- Binds what captures assign, in order up to the first that fails. Each reads the variables as
the ones before it leave them. -/
def bindAll (response : Option Response) :
    List (String × Capture) → Memory → Except Failure Unit × Memory
  | [], m => (.ok (), m)
  | (reference, c) :: more, m =>
    match c.assignment (env.registry.scope m.bindings) response (env.clock m.captured) reference
    with
    | .error e => (.error e, m)
    | .ok none => bindAll response more m
    | .ok (some (name, value)) =>
      bindAll response more
        { bindings := m.bindings.set name value, captured := m.captured + 1 }

/-- The verdicts of assertions on a response, up to the first that fails. -/
def checkAll (scope : Template.Scope) (response : Response) :
    List (String × Assertion) → Except Failure Unit
  | [] => .ok ()
  | (reference, a) :: more => do
    a.check scope (some response) reference
    checkAll scope response more

/-- Captures that bind nothing can be left out. -/
theorem bindAll_filter {response : Option Response} {p : String × Capture → Bool}
    {cs : List (String × Capture)}
    (h : ∀ c ∈ cs, p c = false → ∀ scope now, c.2.assignment scope response now c.1 = .ok none)
    (m : Memory) : env.bindAll response cs m = env.bindAll response (cs.filter p) m := by
  induction cs generalizing m with
  | nil => rfl
  | cons c more ih =>
      have ihmore := ih fun c hc => h c (List.mem_cons_of_mem _ hc)
      cases hp : p c with
      | false =>
          rw [List.filter_cons_of_neg (by simp [hp]), ← ihmore, bindAll,
            h c List.mem_cons_self hp]
      | true =>
          rw [List.filter_cons_of_pos hp, bindAll, bindAll]
          split
          · rfl
          · exact ihmore m
          · exact ihmore _

theorem bindAll_before (cs : List (String × Capture)) (m : Memory) :
    env.bindAll none cs m = env.bindAll none (cs.filter fun c => c.2.isTime) m :=
  env.bindAll_filter (fun _ _ h scope now => Capture.assignment_none h scope now _) m

theorem bindAll_after (response : Response) (cs : List (String × Capture)) (m : Memory) :
    env.bindAll (some response) cs m =
      env.bindAll (some response) (cs.filter fun c => !c.2.isTime) m := by
  refine env.bindAll_filter ?_ m
  intro c _ h scope now
  exact Capture.assignment_some (by simpa using h) scope response now _

variable (levels : Nat)

theorem runNested_capture {r : Resource} {c : Capture} (h : r.kind = .capture c) :
    env.runNested levels r = env.runCapture r.reference c := by
  rw [runNested.eq_def, h]

theorem runNested_assertion {r : Resource} {a : Assertion} (h : r.kind = .assertion a) :
    env.runNested levels r = env.runAssertion r.reference a := by
  rw [runNested.eq_def, h]

theorem runNested_step {r : Resource} {step : Step} (h : r.kind = .step step) :
    env.runNested (levels + 1) r = env.runStep (env.runNested levels) step := by
  rw [runNested.eq_def, h]

/-- Executing captures binds what they assign and changes nothing else. -/
theorem captures_apply {links : List Link}
    (h : ∀ l ∈ links, ∃ r c, l.target? env.registry = .ok r ∧ r.kind = .capture c)
    (s : State) :
    links.forM (env.follow (env.runNested levels)) s =
      ((env.bindAll s.response (env.captures links) s.memory).1,
        s.remember (env.bindAll s.response (env.captures links) s.memory).2) := by
  induction links generalizing s with
  | nil => rfl
  | cons l more ih =>
      obtain ⟨r, c, htarget, hkind⟩ := h l List.mem_cons_self
      have ihmore := ih fun l hl => h l (List.mem_cons_of_mem _ hl)
      have hcaptures : env.captures (l :: more) = (r.reference, c) :: env.captures more :=
        env.targets_cons htarget (congrArg Kind.capture? hkind) more
      have hscope : env.registry.scope s.memory.bindings = env.scope s := rfl
      have hnow : env.clock s.memory.captured = env.clock s.captured := rfl
      rw [Run.forM_cons_apply, follow_apply, htarget, hcaptures, bindAll, hscope, hnow]
      simp only [runNested_capture env levels hkind, runCapture_apply]
      cases c.assignment (env.scope s) s.response (env.clock s.captured) r.reference with
      | error e => rfl
      | ok binding =>
          cases binding with
          | none => exact ihmore s
          | some pair => exact ihmore _

/-- Executing assertions gives their verdicts and changes nothing. -/
theorem assertions_apply {links : List Link}
    (h : ∀ l ∈ links, ∃ r a, l.target? env.registry = .ok r ∧ r.kind = .assertion a)
    {s : State} {response : Response} (hresponse : s.response = some response) :
    links.forM (env.follow (env.runNested levels)) s =
      (checkAll (env.scope s) response (env.assertions links), s) := by
  induction links with
  | nil => rfl
  | cons l more ih =>
      obtain ⟨r, a, htarget, hkind⟩ := h l List.mem_cons_self
      have ihmore := ih fun l hl => h l (List.mem_cons_of_mem _ hl)
      have hassertions : env.assertions (l :: more) = (r.reference, a) :: env.assertions more :=
        env.targets_cons htarget (congrArg Kind.assertion? hkind) more
      rw [Run.forM_cons_apply, follow_apply, htarget, hassertions, checkAll]
      simp only [runNested_assertion env levels hkind, runAssertion_apply, hresponse]
      cases a.check (env.scope s) (some response) r.reference with
      | error e => rfl
      | ok u => exact ihmore

/-- What a step captures before its request. -/
def before (step : Step) (m : Memory) : Except Failure Unit × Memory :=
  env.bindAll none ((env.captures step.captures).filter fun c => c.2.isTime) m

/-- The request of a step after what it captures before it. -/
def built (step : Step) (m : Memory) : Except Failure Request := do
  (env.before step m).1
  step.request (env.registry.scope (env.before step m).2.bindings)

/-- The verdict of a step's assertions. -/
def verdict (step : Step) (m : Memory) (response : Response) : Except Failure Unit :=
  checkAll (env.registry.scope m.bindings) response (env.assertions step.assertions)

/-- What a step captures of its response. -/
def afterwards (step : Step) (m : Memory) (response : Response) : Except Failure Unit × Memory :=
  env.bindAll (some response) ((env.captures step.captures).filter fun c => !c.2.isTime) m

end Environment

def Memory.state (m : Memory) (response : Option Response) (sent : List Request) : State :=
  { bindings := m.bindings, response, sent, captured := m.captured }

/-- The links of a step lead to assertions and captures. -/
structure Step.Plain (registry : Registry) (step : Step) : Prop where
  assertions : ∀ l ∈ step.assertions, ∃ r a,
    l.target? registry = .ok r ∧ r.kind = .assertion a
  captures : ∀ l ∈ step.captures, ∃ r c,
    l.target? registry = .ok r ∧ r.kind = .capture c

namespace Environment

variable (env : Environment) (levels : Nat)

theorem before_apply {step : Step} (h : step.Plain env.registry) (s : State) :
    step.captures.forM (env.follow (env.runNested levels)) { s with response := none } =
      ((env.before step s.memory).1, (env.before step s.memory).2.state none s.sent) := by
  rw [env.captures_apply levels h.captures, bindAll_before]
  rfl

theorem verdict_apply {step : Step} (h : step.Plain env.registry) (m : Memory)
    (response : Response) (sent : List Request) :
    step.assertions.forM (env.follow (env.runNested levels)) (m.state (some response) sent) =
      (env.verdict step m response, m.state (some response) sent) :=
  env.assertions_apply levels h.assertions rfl

theorem afterwards_apply {step : Step} (h : step.Plain env.registry) (m : Memory)
    (response : Response) (sent : List Request) :
    step.captures.forM (env.follow (env.runNested levels)) (m.state (some response) sent) =
      ((env.afterwards step m response).1,
        (env.afterwards step m response).2.state (some response) sent) := by
  have hresponse : (m.state (some response) sent).response = some response := rfl
  rw [env.captures_apply levels h.captures, hresponse, bindAll_after]
  rfl

/-- Sends a request and executes what reads the response. -/
def exchange (step : Step) (m : Memory) (sent : List Request) (request : Request) :
    Except Failure Unit × State :=
  match env.transport sent request with
  | .error e => (.error (.transport e), m.state none (sent ++ [request]))
  | .ok response =>
    match env.verdict step m response with
    | .error e => (.error e, m.state (some response) (sent ++ [request]))
    | .ok () =>
      ((env.afterwards step m response).1,
        (env.afterwards step m response).2.state (some response) (sent ++ [request]))

theorem exchange_apply {step : Step} (h : step.Plain env.registry) (m : Memory)
    (sent : List Request) (request : Request) :
    (do
      let response ← env.send request
      setResponse (some response)
      step.assertions.forM (env.follow (env.runNested levels))
      step.captures.forM (env.follow (env.runNested levels)) : Run Unit) (m.state none sent) =
      env.exchange step m sent request := by
  have hsent : (m.state none sent).sent = sent := rfl
  rw [Run.bind_apply, send_apply, hsent, exchange]
  cases env.transport sent request with
  | error e => rfl
  | ok response =>
      simp only
      rw [Run.bind_apply, setResponse_apply]
      change (do
        step.assertions.forM (env.follow (env.runNested levels))
        step.captures.forM (env.follow (env.runNested levels)) : Run Unit)
          (m.state (some response) (sent ++ [request])) = _
      rw [Run.bind_apply, env.verdict_apply levels h]
      cases env.verdict step m response with
      | error e => rfl
      | ok u => exact env.afterwards_apply levels h m response (sent ++ [request])

theorem exchange_sent (step : Step) (m : Memory) (sent : List Request) (request : Request) :
    (env.exchange step m sent request).2.sent = sent ++ [request] := by
  rw [exchange]
  split
  · rfl
  · split <;> rfl

/-- Executing a step, phase by phase. -/
theorem runStep_apply {step : Step} (h : step.Plain env.registry) (s : State) :
    env.runStep (env.runNested levels) step s =
      match env.built step s.memory with
      | .error e => (.error e, (env.before step s.memory).2.state none s.sent)
      | .ok request => env.exchange step (env.before step s.memory).2 s.sent request := by
  rw [runStep_eq, Run.bind_apply, setResponse_apply]
  simp only
  rw [Run.bind_apply, env.before_apply levels h, built]
  cases env.before step s.memory with
  | mk outcome memory =>
      cases outcome with
      | error e => rfl
      | ok u =>
          have hscope : env.scope (memory.state none s.sent) =
              env.registry.scope memory.bindings := rfl
          simp only
          rw [Run.bind_apply, stepRequest_apply, hscope]
          change _ = match step.request (env.registry.scope memory.bindings) with
            | .error _ => _ | .ok _ => _
          cases step.request (env.registry.scope memory.bindings) with
          | error e => rfl
          | ok request => exact env.exchange_apply levels h memory s.sent request

end Environment

/-- `Environment.exec` executes a resource with as many levels as resources are registered. -/
theorem step_runs_in_phases (env : Environment) (levels : Nat) (hlevels : 0 < levels)
    (r : Resource) (step : Step) (hkind : r.kind = .step step) (hplain : step.Plain env.registry)
    (s : State) :
    let before := env.before step s.memory
    let built := env.built step s.memory
    let outcome := (env.runNested levels r s).1
    let final := (env.runNested levels r s).2
    (final.sent = s.sent ∨ ∃ request, final.sent = s.sent ++ [request]) ∧
    (∀ request, final.sent = s.sent ++ [request] ↔ built = .ok request) ∧
    (∀ e, built = .error e → outcome = .error e ∧
      final.toContext = { bindings := before.2.bindings, response := none }) ∧
    (∀ request e, built = .ok request → env.transport s.sent request = .error e →
      outcome = .error (.transport e) ∧
        final.toContext = { bindings := before.2.bindings, response := none }) ∧
    ∀ request response, built = .ok request → env.transport s.sent request = .ok response →
      (∀ e, env.verdict step before.2 response = .error e → outcome = .error e ∧
        final.toContext = { bindings := before.2.bindings, response := some response }) ∧
      (env.verdict step before.2 response = .ok () →
        outcome = (env.afterwards step before.2 response).1 ∧
        final.toContext =
          { bindings := (env.afterwards step before.2 response).2.bindings
            response := some response }) := by
  intro before built outcome final
  have hrun : env.runNested levels r s =
      match built with
      | .error e => (.error e, before.2.state none s.sent)
      | .ok request => env.exchange step before.2 s.sent request := by
    cases levels with
    | zero => cases hlevels
    | succ levels =>
        rw [env.runNested_step levels hkind]
        exact env.runStep_apply levels hplain s
  have hends : ∀ result, env.runNested levels r s = result →
      outcome = result.1 ∧ final.toContext = result.2.toContext := by
    intro result h
    exact ⟨congrArg Prod.fst h, congrArg (fun result => result.2.toContext) h⟩
  cases hbuilt : built with
  | error e =>
      rw [hbuilt] at hrun
      have hsent : final.sent = s.sent := congrArg (fun result => result.2.sent) hrun
      refine ⟨.inl hsent, ?_, ?_, ?_, ?_⟩
      · intro request
        simp [hsent]
      · intro e' he
        cases he
        exact hends _ hrun
      · intro request e' hrequest
        cases hrequest
      · intro request response hrequest
        cases hrequest
  | ok request =>
      rw [hbuilt] at hrun
      have hsent : final.sent = s.sent ++ [request] :=
        (congrArg (fun result => result.2.sent) hrun).trans (env.exchange_sent ..)
      refine ⟨.inr ⟨request, hsent⟩, ?_, ?_, ?_, ?_⟩
      · intro other
        simp [hsent]
      · intro e he
        cases he
      · intro other e hother htransport
        cases hother
        simp only [Environment.exchange, htransport] at hrun
        exact hends _ hrun
      · intro other response hother htransport
        cases hother
        simp only [Environment.exchange, htransport] at hrun
        refine ⟨?_, ?_⟩
        · intro e hverdict
          simp only [hverdict] at hrun
          exact hends _ hrun
        · intro hverdict
          simp only [hverdict] at hrun
          exact hends _ hrun

/-- A link that has been resolved. -/
def Link.to (r : Resource) : Link :=
  ⟨"$\x7b" ++ r.reference ++ ".ref\x7d", some r.handle⟩

theorem sample_step_runs_in_phases :
    let check := Resource.bare "1" "http_assertion_status_code" "ok" (.assertion (.statusCode "200"))
    let now := Resource.bare "2" "system_variable" "now" (.capture (.time "now" .unix))
    let tag := Resource.bare "3" "http_outlet_header" "tag" (.capture (.outletHeader "etag" "tag"))
    let step : Step :=
      { method := "GET", url := "http://a/$\x7bvar.now\x7d", body := "", headers := []
        assertions := [.to check], captures := [.to tag, .to now] }
    let page := Resource.bare "4" "http_step" "page" (.step step)
    let response : Response := { status := 200, headers := [("etag", "x")], body := [] }
    let env : Environment :=
      { registry := ⟨[check, now, tag, page]⟩, transport := fun _ _ => .ok response
        clock := fun _ => ⟨60, 0⟩ }
    let s : State :=
      { bindings := .empty, response := some { response with status := 500 }, sent := []
        captured := 0 }
    0 < env.registry.size ∧ page.kind = .step step ∧ step.Plain env.registry ∧
      (env.exec page s).1 = .ok () ∧
      (env.exec page s).2.sent = [⟨"GET", "http://a/60", [], ""⟩] ∧
      (env.exec page s).2.toContext =
        { bindings := ⟨[("now", "60"), ("tag", "x")]⟩, response := some response } := by
  intro check now tag step page response env s
  have hlevels : 0 < env.registry.size := by decide
  have hplain : step.Plain env.registry := by
    refine ⟨?_, ?_⟩
    · intro l hl
      cases List.mem_singleton.mp hl
      exact ⟨check, _, by decide +kernel, rfl⟩
    · intro l hl
      cases hl with
      | head => exact ⟨tag, _, by decide +kernel, rfl⟩
      | tail _ hl =>
          cases List.mem_singleton.mp hl
          exact ⟨now, _, by decide +kernel, rfl⟩
  have hbuilt : env.built step s.memory = .ok ⟨"GET", "http://a/60", [], ""⟩ := by decide +kernel
  have hverdict : env.verdict step (env.before step s.memory).2 response = .ok () := by
    decide +kernel
  obtain ⟨_, hsent, _, _, hresponse⟩ :=
    step_runs_in_phases env env.registry.size hlevels page step rfl hplain s
  obtain ⟨houtcome, hcontext⟩ := (hresponse _ response hbuilt rfl).2 hverdict
  refine ⟨hlevels, rfl, hplain, ?_, (hsent _).mpr hbuilt, ?_⟩
  · exact houtcome.trans (by decide +kernel)
  · exact hcontext.trans (by decide +kernel)

end HttpSuite
