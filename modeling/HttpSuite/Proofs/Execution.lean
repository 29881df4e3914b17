import HttpSuite.Execution

/-!
Laws of executions as functions of the state. Each operation is given by its outcome and the
state that it leaves. Two properties pass from the parts of a computation to the whole: that
every failure is of one kind, and that two computations have one outcome and keep their states
related.
-/

namespace HttpSuite

variable {α β : Type}

theorem bind_eq_ok_iff {ε : Type} {x : Except ε α} {f : α → Except ε β} {b : β} :
    x >>= f = .ok b ↔ ∃ a, x = .ok a ∧ f a = .ok b := by
  cases x with
  | error e => exact ⟨nofun, nofun⟩
  | ok a => exact ⟨fun h => ⟨a, rfl, h⟩, fun ⟨_, hx, hf⟩ => by cases hx; exact hf⟩

theorem Run.bind_apply (x : Run α) (f : α → Run β) (s : State) :
    (x >>= f) s = match x s with
      | (.ok a, s') => f a s'
      | (.error e, s') => (.error e, s') := by
  show ExceptT.bindCont f (x s).1 (x s).2 = _
  simp only [ExceptT.bindCont]
  generalize x s = result
  obtain ⟨outcome, s'⟩ := result
  cases outcome <;> rfl

theorem Run.lift_apply (x : Except Failure α) (s : State) : (liftM x : Run α) s = (x, s) := by
  cases x <;> rfl

theorem Run.forM_cons_apply (f : α → Run Unit) (a : α) (more : List α) (s : State) :
    (a :: more).forM f s =
      match f a s with
      | (.ok _, s') => more.forM f s'
      | (.error e, s') => (.error e, s') := by
  rw [List.forM_eq_forM, List.forM_cons, bind_apply]
  cases ha : f a s with
  | mk outcome s' => cases outcome <;> rfl

theorem Run.forM_congr {f g : α → Run Unit} {xs : List α} (h : ∀ a ∈ xs, f a = g a) :
    xs.forM f = xs.forM g := by
  induction xs with
  | nil => rfl
  | cons a more ih =>
      obtain ⟨ha, hmore⟩ := List.forall_mem_cons.mp h
      simp only [List.forM_eq_forM, List.forM_cons] at ih ⊢
      rw [ha, ih hmore]

namespace Environment

theorem runAssertion_apply (env : Environment) (reference : String) (a : Assertion)
    (s : State) :
    env.runAssertion reference a s = (a.check (env.scope s) s.response reference, s) :=
  Run.lift_apply (a.check (env.scope s) s.response reference) s

theorem runCapture_apply (env : Environment) (reference : String) (c : Capture) (s : State) :
    env.runCapture reference c s =
      match c.assignment (env.scope s) s.response (env.clock s.captured) reference with
      | .error e => (.error e, s)
      | .ok none => (.ok (), s)
      | .ok (some (name, value)) =>
        (.ok (), { s with
          bindings := s.bindings.set name value
          captured := s.captured + 1 }) := by
  let assigned := c.assignment (env.scope s) s.response (env.clock s.captured) reference
  simp only [runCapture]
  rw [Run.bind_apply]
  show ((liftM assigned : Run (Option (String × String))) >>= _) s = _
  rw [Run.bind_apply, Run.lift_apply]
  cases h : assigned with
  | error e => simp only [assigned] at h; simp only [h]
  | ok binding => simp only [assigned] at h; simp only [h]; cases binding <;> rfl

theorem send_apply (env : Environment) (request : Request) (s : State) :
    env.send request s =
      match env.transport s.sent request with
      | .error e => (.error (.transport e), { s with sent := s.sent ++ [request] })
      | .ok response => (.ok response, { s with sent := s.sent ++ [request] }) := by
  let state : State := { s with sent := s.sent ++ [request] }
  show (match env.transport s.sent request with
    | .error e => throw (.transport e)
    | .ok response => return response : Run Response) state = _
  cases env.transport s.sent request <;> rfl

theorem setResponse_apply (response : Option Response) (s : State) :
    setResponse response s = (.ok (), { s with response }) := rfl

theorem follow_apply (env : Environment) (exec : Resource → Run Unit) (l : Link) (s : State) :
    env.follow exec l s =
      match l.target? env.registry with
      | .error e => (.error e, s)
      | .ok r => exec r s := by
  simp only [follow]
  rw [Run.bind_apply]
  cases l.target? env.registry <;> rfl

theorem follow_of_target? {env : Environment} {l : Link} {r : Resource}
    (h : l.target? env.registry = .ok r) (exec : Resource → Run Unit) :
    env.follow exec l = exec r := by
  funext s
  rw [follow_apply, h]

/-- The request of a step in the current scope. -/
def stepRequest (env : Environment) (s : Step) : Run Request := do
  let state ← get
  s.request (env.scope state)

theorem stepRequest_apply (env : Environment) (step : Step) (s : State) :
    env.stepRequest step s = (step.request (env.scope s), s) :=
  Run.lift_apply (step.request (env.scope s)) s

/-- The phases of a step. -/
theorem runStep_eq (env : Environment) (exec : Resource → Run Unit) (s : Step) :
    env.runStep exec s = (do
      setResponse none
      s.captures.forM (env.follow exec)
      let request ← env.stepRequest s
      let response ← env.send request
      setResponse (some response)
      s.assertions.forM (env.follow exec)
      s.captures.forM (env.follow exec)) := by
  simp only [runStep, stepRequest, bind_assoc]

end Environment

/-- Every failure is of one kind. -/
def FailsOnly (kind : Failure → Prop) (x : Except Failure α) : Prop :=
  ∀ e, x = .error e → kind e

section FailsOnly

variable {kind : Failure → Prop}

theorem FailsOnly.ok (a : α) : FailsOnly kind (.ok a) := by
  intro e h
  cases h

theorem FailsOnly.error {e : Failure} (h : kind e) :
    FailsOnly kind (.error e : Except Failure α) := by
  intro e' h'
  cases h'
  exact h

theorem FailsOnly.bind {x : Except Failure α} {f : α → Except Failure β}
    (hx : FailsOnly kind x) (hf : ∀ a, FailsOnly kind (f a)) : FailsOnly kind (x >>= f) := by
  cases x with
  | error e => exact .error (hx e rfl)
  | ok a => exact hf a

namespace Run

/-- Every failure of a computation is of one kind, whatever state it starts in. -/
def FailsOnly (kind : Failure → Prop) (x : Run α) : Prop :=
  ∀ s, HttpSuite.FailsOnly kind (x s).1

theorem FailsOnly.pure (a : α) : FailsOnly kind (pure a : Run α) :=
  fun _ => .ok a

theorem FailsOnly.bind {x : Run α} {f : α → Run β} (hx : FailsOnly kind x)
    (hf : ∀ a, FailsOnly kind (f a)) : FailsOnly kind (x >>= f) := by
  intro s
  rw [bind_apply]
  have hs := hx s
  generalize x s = result at hs ⊢
  obtain ⟨outcome, s'⟩ := result
  cases outcome with
  | error e => exact .error (hs e rfl)
  | ok a => exact hf a s'

theorem FailsOnly.forM {f : α → Run Unit} {xs : List α}
    (hf : ∀ a ∈ xs, FailsOnly kind (f a)) : FailsOnly kind (xs.forM f) := by
  induction xs with
  | nil => exact .pure ()
  | cons a more ih =>
      rw [List.forM_eq_forM, List.forM_cons]
      refine .bind (hf a List.mem_cons_self) fun _ => ?_
      exact ih fun b hb => hf b (List.mem_cons_of_mem a hb)

end Run
end FailsOnly

/-- Two computations that have one outcome and keep their states related. -/
def Run.Agree (related : State → State → Prop) (x y : Run α) : Prop :=
  ∀ s t, related s t → (x s).1 = (y t).1 ∧ related (x s).2 (y t).2

namespace Run.Agree

variable {related : State → State → Prop}

theorem pure (a : α) : Agree related (pure a : Run α) (pure a) :=
  fun _ _ h => ⟨rfl, h⟩

theorem throw (e : Failure) : Agree related (throw e : Run α) (throw e) :=
  fun _ _ h => ⟨rfl, h⟩

theorem bind {x y : Run α} {f g : α → Run β} (hxy : Agree related x y)
    (hfg : ∀ a, Agree related (f a) (g a)) : Agree related (x >>= f) (y >>= g) := by
  intro s t hst
  rw [bind_apply, bind_apply]
  obtain ⟨houtcome, hstates⟩ := hxy s t hst
  generalize x s = left at houtcome hstates ⊢
  generalize y t = right at houtcome hstates ⊢
  obtain ⟨outcome, s'⟩ := left
  obtain ⟨_, t'⟩ := right
  cases houtcome
  cases outcome with
  | error e => exact ⟨rfl, hstates⟩
  | ok a => exact hfg a s' t' hstates

theorem forM {f g : α → Run Unit} (hfg : ∀ a, Agree related (f a) (g a)) (xs : List α) :
    Agree related (xs.forM f) (xs.forM g) := by
  induction xs with
  | nil => exact pure ()
  | cons a more ih =>
      rw [List.forM_eq_forM, List.forM_cons, List.forM_cons]
      exact bind (hfg a) fun _ => ih

end Run.Agree
end HttpSuite
