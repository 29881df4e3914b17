import HttpSuite.Family
import HttpSuite.Proofs.Globals
import HttpSuite.Proofs.Phases

/-!
What executing an assertion or a capture can change. An assertion only judges a response. A
capture binds one variable at most, and it does so last, when nothing in it can fail any more.
-/

namespace HttpSuite

/-- Assertions and captures, which execute no other resources. -/
def Kind.isLeaf : Kind → Bool
  | .assertion _ | .capture _ => true
  | .step _ | .test _ => false

theorem Kind.eq_of_isLeaf {kind : Kind} (h : kind.isLeaf = true) :
    (∃ a, kind = .assertion a) ∨ ∃ c, kind = .capture c := by
  cases kind with
  | assertion a => exact .inl ⟨a, rfl⟩
  | capture c => exact .inr ⟨c, rfl⟩
  | step _ | test _ => cases h

namespace Capture

/-- The template of the name that a capture binds. -/
def into : Capture → String
  | .response _ _ into _ | .time into _ | .outletHeader _ into | .outletJsonField _ into _ => into

theorem assignment_name {c : Capture} {scope : Template.Scope} {response : Option Response}
    {now : Instant} {reference name value : String}
    (h : c.assignment scope response now reference = .ok (some (name, value))) :
    scope.evaluate c.into = .ok name := by
  cases c with
  | time into format =>
      cases response with
      | some response => cases h
      | none =>
          obtain ⟨_, hinto, hvalue⟩ := bind_eq_ok_iff.mp h
          cases hvalue
          exact hinto
  | response source property into numericType =>
      cases response with
      | none => cases h
      | some response =>
          obtain ⟨_, hinto, hrest⟩ := bind_eq_ok_iff.mp h
          obtain ⟨_, _, hrest⟩ := bind_eq_ok_iff.mp hrest
          cases source with
          | header =>
              obtain ⟨_, _, hpair⟩ := Option.map_eq_some_iff.mp (Except.ok.inj hrest)
              cases hpair
              exact hinto
          | jsonBody =>
              obtain ⟨_, _, hvalue⟩ := bind_eq_ok_iff.mp hrest
              cases hvalue
              exact hinto
  | outletHeader source into =>
      cases response with
      | none => cases h
      | some response =>
          obtain ⟨_, _, hrest⟩ := bind_eq_ok_iff.mp h
          obtain ⟨_, hinto, hvalue⟩ := bind_eq_ok_iff.mp hrest
          obtain ⟨_, _, hpair⟩ := Option.map_eq_some_iff.mp (Except.ok.inj hvalue)
          cases hpair
          exact hinto
  | outletJsonField path into numericType =>
      cases response with
      | none => cases h
      | some response =>
          obtain ⟨_, _, hrest⟩ := bind_eq_ok_iff.mp h
          obtain ⟨_, hinto, hrest⟩ := bind_eq_ok_iff.mp hrest
          obtain ⟨_, _, hvalue⟩ := bind_eq_ok_iff.mp hrest
          cases hvalue
          exact hinto

end Capture

namespace Family

/-- After an execution on one context all is as before, but for the variables of the context and
the number of captured values. -/
structure Frame (family : Family) (i : Nat) (after : Family) : Prop where
  registry : after.registry = family.registry
  owners : after.owners = family.owners
  sent : after.world.sent = family.world.sent
  responses : after.contexts.map Context.response = family.contexts.map Context.response
  others : ∀ j, j ≠ i → after.contexts[j]? = family.contexts[j]?

variable (transport : Transport) (clock : Clock) (family : Family) (i : Nat)

theorem Frame.refl : family.Frame i family :=
  ⟨rfl, rfl, rfl, rfl, fun _ _ => rfl⟩

/-- Binds a variable of one context to a captured value. -/
def capture (name value : String) : Family :=
  { family.setVariable i name value with
    world := { family.world with captured := family.world.captured + 1 } }

theorem update_context (f : Context → Context) :
    family.update i (fun _ => f (family.context i)) = family.update i f := by
  simp only [update]
  congr 1
  apply List.ext_getElem?
  intro j
  rw [List.getElem?_modify, List.getElem?_modify]
  by_cases hj : i = j
  · subst hj
    cases hcontext : family.contexts[i]? with
    | none => rfl
    | some c => simp [context, hcontext]
  · simp [hj]

theorem frame_capture (name value : String) : family.Frame i (family.capture i name value) where
  registry := rfl
  owners := rfl
  sent := rfl
  responses := by
    apply List.ext_getElem?
    intro j
    simp only [capture, setVariable, update, List.getElem?_map, List.getElem?_modify]
    cases family.contexts[j]? with
    | none => rfl
    | some c => by_cases hj : i = j <;> simp [hj]
  others := fun j hj => List.getElem?_modify_ne _ _ hj.symm

theorem capture_get?_ne {name other : String} (h : other ≠ name) (value : String) :
    ((family.capture i name value).context i).bindings.get? other =
      (family.context i).bindings.get? other := by
  simp only [capture, setVariable, update, context]
  rw [List.getElem?_modify_eq]
  cases family.contexts[i]? with
  | none => rfl
  | some c => exact (c.bindings.get?_set name value other).trans (if_neg h)

/-- An execution that changes the context by itself and the world changes the family alike. -/
theorem exec_of_apply {r : Resource} {outcome : Except Failure Unit} {f : Context → Context}
    {world : World}
    (h : Environment.exec { registry := family.registry, transport, clock } r
      { family.context i, family.world with } =
        (outcome, { f (family.context i), world with })) :
    family.exec transport clock i r = (outcome, { family.update i f with world }) := by
  simp only [exec, h]
  rw [← family.update_context i f]

theorem exec_of_unchanged {r : Resource} {outcome : Except Failure Unit}
    (h : Environment.exec { registry := family.registry, transport, clock } r
      { family.context i, family.world with } =
        (outcome, { family.context i, family.world with })) :
    family.exec transport clock i r = (outcome, family) := by
  have hsame := family.exec_of_apply transport clock i (f := id) h
  rw [hsame, update, List.modify_id]

theorem exec_assertion {r : Resource} {a : Assertion} (h : r.kind = .assertion a) :
    family.exec transport clock i r =
      (a.check (family.scope i) (family.context i).response r.reference, family) := by
  apply exec_of_unchanged
  rw [Environment.exec, Environment.runNested_assertion _ _ h, Environment.runAssertion_apply]
  rfl

theorem exec_capture {r : Resource} {c : Capture} (h : r.kind = .capture c) :
    family.exec transport clock i r =
      match c.assignment (family.scope i) (family.context i).response
        (clock family.world.captured) r.reference with
      | .error e => (.error e, family)
      | .ok none => (.ok (), family)
      | .ok (some (name, value)) => (.ok (), family.capture i name value) := by
  let env : Environment := { registry := family.registry, transport, clock }
  let s : State := { family.context i, family.world with }
  have hrun : env.exec r s = env.runCapture r.reference c s :=
    congrFun (env.runNested_capture env.registry.size h) s
  have hinputs : c.assignment (env.scope s) s.response (env.clock s.captured) r.reference =
      c.assignment (family.scope i) (family.context i).response (clock family.world.captured)
        r.reference := rfl
  rw [env.runCapture_apply, hinputs] at hrun
  cases hassignment : c.assignment (family.scope i) (family.context i).response
      (clock family.world.captured) r.reference with
  | error e =>
      rw [hassignment] at hrun
      exact family.exec_of_unchanged transport clock i hrun
  | ok binding =>
      rw [hassignment] at hrun
      cases binding with
      | none => exact family.exec_of_unchanged transport clock i hrun
      | some pair =>
          exact family.exec_of_apply transport clock i
            (f := fun c => { c with bindings := c.bindings.set pair.1 pair.2 }) hrun

/-- A capture that fails or has nothing to capture changes nothing. -/
theorem exec_capture_cases {r : Resource} {c : Capture} (h : r.kind = .capture c) :
    (family.exec transport clock i r).2 = family ∨ ∃ name value,
      (family.scope i).evaluate c.into = .ok name ∧
      family.exec transport clock i r = (.ok (), family.capture i name value) := by
  rw [family.exec_capture transport clock i h]
  split
  · exact .inl rfl
  · exact .inl rfl
  · next name value hassignment =>
      exact .inr ⟨name, value, Capture.assignment_name hassignment, rfl⟩

end Family

/-- A template with no value fails a capture only where there is something to capture. -/
theorem leaves_are_atomic (transport : Transport) (clock : Clock) (family : Family) (i : Nat)
    (r : Resource) (hleaf : r.kind.isLeaf = true) :
    let outcome := (family.exec transport clock i r).1
    let after := (family.exec transport clock i r).2
    family.Frame i after ∧
    (∀ e, outcome = .error e → after = family) ∧
    (∀ a, r.kind = .assertion a → after = family) ∧
    ∀ c, r.kind = .capture c →
      (after = family ∨ ∃ name value, outcome = .ok () ∧
        (family.scope i).evaluate c.into = .ok name ∧ after = family.capture i name value ∧
        ∀ other, other ≠ name → (after.context i).bindings.get? other =
          (family.context i).bindings.get? other) ∧
      (c.isTime = false → (family.context i).response = none →
        outcome = .ok () ∧ after = family) ∧
      (c.isTime = true → ∀ response, (family.context i).response = some response →
        outcome = .ok () ∧ after = family) := by
  intro outcome after
  rcases Kind.eq_of_isLeaf hleaf with ⟨a, hkind⟩ | ⟨c, hkind⟩
  · have hafter : after = family :=
      congrArg Prod.snd (family.exec_assertion transport clock i hkind)
    refine ⟨hafter ▸ .refl family i, fun _ _ => hafter, fun _ _ => hafter, ?_⟩
    intro c hcapture
    rw [hkind] at hcapture
    cases hcapture
  · have hcases := family.exec_capture_cases transport clock i hkind
    refine ⟨?_, ?_, ?_, ?_⟩
    · rcases hcases with hafter | ⟨name, value, _, hexec⟩
      · exact hafter ▸ .refl family i
      · have hafter : after = family.capture i name value := congrArg Prod.snd hexec
        exact hafter ▸ family.frame_capture i name value
    · intro e he
      rcases hcases with hafter | ⟨_, _, _, hexec⟩
      · exact hafter
      · cases he.symm.trans (congrArg Prod.fst hexec)
    · intro a hassertion
      rw [hkind] at hassertion
      cases hassertion
    · intro c' hcapture
      rw [hkind] at hcapture
      cases hcapture
      refine ⟨?_, ?_, ?_⟩
      · rcases hcases with hafter | ⟨name, value, hinto, hexec⟩
        · exact .inl hafter
        · have hafter : after = family.capture i name value := congrArg Prod.snd hexec
          refine .inr ⟨name, value, congrArg Prod.fst hexec, hinto, hafter, ?_⟩
          intro other hother
          rw [hafter]
          exact family.capture_get?_ne i hother value
      · intro htime hresponse
        have hexec := family.exec_capture transport clock i hkind
        rw [hresponse, Capture.assignment_none htime] at hexec
        exact Prod.ext_iff.mp hexec
      · intro htime response hresponse
        have hexec := family.exec_capture transport clock i hkind
        rw [hresponse, Capture.assignment_some htime] at hexec
        exact Prod.ext_iff.mp hexec

/-- The first context has a response with the header; the second has none, so that the template
without a value is never looked at. -/
theorem sample_leaves_are_atomic :
    let tag := Resource.bare "1" "http_outlet_header" "tag"
      (.capture (.outletHeader "etag" "$\x7bvar.name\x7d"))
    let broken := Resource.bare "2" "http_outlet_header" "broken"
      (.capture (.outletHeader "etag" "$\x7bname\x7d"))
    let transport : Transport := fun _ _ => .ok ⟨200, [], []⟩
    let clock : Clock := fun n => ⟨n, 0⟩
    let response : Response := ⟨200, [("ETag", "x")], []⟩
    let family : Family :=
      { registry := ⟨[tag, broken]⟩, owners := 2, world := .initial
        contexts := [⟨⟨[("name", "tag")]⟩, some response⟩, .blank] }
    tag.kind.isLeaf = true ∧ broken.kind.isLeaf = true ∧
      family.Frame 0 (family.exec transport clock 0 tag).2 ∧
      (family.exec transport clock 0 tag).2.contexts =
        [⟨⟨[("name", "tag"), ("tag", "x")]⟩, some response⟩, .blank] ∧
      (family.exec transport clock 0 broken).1.isOk = false ∧
      (family.exec transport clock 1 broken).1 = .ok () ∧
      (family.exec transport clock 1 broken).2 = family := by
  intro tag broken transport clock response family
  obtain ⟨hframe, _⟩ := leaves_are_atomic transport clock family 0 tag rfl
  obtain ⟨_, _, _, hcapture⟩ := leaves_are_atomic transport clock family 1 broken rfl
  obtain ⟨_, hnone, _⟩ := hcapture _ rfl
  obtain ⟨houtcome, hafter⟩ := hnone rfl rfl
  exact ⟨rfl, rfl, hframe, by decide +kernel, by decide +kernel, houtcome, hafter⟩

end HttpSuite
