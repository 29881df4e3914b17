import HttpSuite.Proofs.Acceptance
import HttpSuite.Proofs.Agreement

/-!
Kinds that are short for another. A general assertion compares a status code or a body, and a
response capture takes a header or a JSON field, as the kinds do that are for this alone. What is
accepted of the one is accepted of the other, and both come to the same in every context.
-/

namespace HttpSuite

/-- The kinds that are short for a general one, with the texts of their fields. -/
inductive Shorthand where
  | statusCode (equals : String)
  | body (equals : String)
  | outletHeader (source into : String)
  | outletJsonField (path into numericType : String)

namespace Shorthand

def driver : Shorthand → Driver
  | statusCode _ => .statusCodeAssertion
  | body _ => .bodyAssertion
  | outletHeader .. => .outletHeader
  | outletJsonField .. => .outletJsonField

def fields : Shorthand → List (String × String)
  | statusCode equals | body equals => [("equals", equals)]
  | outletHeader source into => [("source", source), ("variable", into)]
  | outletJsonField path into numericType =>
    [("path", path), ("variable", into), ("numeric_type", numericType)]

/-- The kind that a shorthand makes, given the numeric type that its text names. -/
def kind (numericType : NumericType) : Shorthand → Kind
  | statusCode equals => .assertion (.statusCode equals)
  | body equals => .assertion (.body equals)
  | outletHeader source into => .capture (.outletHeader source into)
  | outletJsonField path into _ => .capture (.outletJsonField path into numericType)

def generalDriver : Shorthand → Driver
  | statusCode _ | body _ => .httpAssertion
  | outletHeader .. | outletJsonField .. => .httpVariable

def generalFields : Shorthand → List (String × String)
  | statusCode equals =>
    [("source", "status_code"), ("comparison", "equals"), ("target", equals)]
  | body equals => [("source", "body"), ("comparison", "equals"), ("target", equals)]
  | outletHeader source into =>
    [("source", "header"), ("property", source), ("variable", into)]
  | outletJsonField path into numericType =>
    [("source", "json_body"), ("property", path), ("variable", into),
      ("numeric_type", numericType)]

def generalKind (numericType : NumericType) : Shorthand → Kind
  | statusCode equals => .assertion (.general .statusCode "" .equals equals)
  | body equals => .assertion (.general .body "" .equals equals)
  | outletHeader source into => .capture (.response .header source into numericType)
  | outletJsonField path into _ => .capture (.response .jsonBody path into numericType)

/-- The text of the numeric type, empty where there is none to give. -/
def numericType : Shorthand → String
  | outletJsonField _ _ numericType => numericType
  | _ => ""

/-- The texts that must not be empty. -/
def needs : Shorthand → List String
  | statusCode equals | body equals => [equals]
  | outletHeader source into => [source, into]
  | outletJsonField path into _ => [path, into]

/-- The two templates of a capture. -/
def templates : Shorthand → Option (String × String)
  | statusCode _ | body _ => none
  | outletHeader source into => some (source, into)
  | outletJsonField path into _ => some (path, into)

variable {s : Shorthand} {b : Block} {kind : Kind}

/-- What is accepted of a shorthand. -/
theorem ofFields_ok_iff (h : b.Gives s.driver s.fields) :
    Kind.ofFields s.driver b.fields = .ok kind ↔
      (∀ text ∈ s.needs, text ≠ "") ∧
        ∃ numericType, NumericType.read s.numericType = .ok numericType ∧
          kind = s.kind numericType := by
  cases s with
  | statusCode equals =>
      have hequals : textOf "equals" b.fields = equals := h.textOf_eq rfl
      simp only [driver, Kind.ofFields, Kind.statusCodeOf_ok_iff, hequals]
      simp [needs, numericType, NumericType.read_empty, Shorthand.kind]
  | body equals =>
      have hequals : textOf "equals" b.fields = equals := h.textOf_eq rfl
      simp only [driver, Kind.ofFields, Kind.bodyOf_ok_iff, hequals]
      simp [needs, numericType, NumericType.read_empty, Shorthand.kind]
  | outletHeader source into =>
      have hsource : textOf "source" b.fields = source := h.textOf_eq rfl
      have hinto : textOf "variable" b.fields = into := h.textOf_eq rfl
      simp only [driver, Kind.ofFields, Kind.outletHeaderOf_ok_iff, hsource, hinto]
      simp [needs, numericType, NumericType.read_empty, Shorthand.kind, and_assoc]
  | outletJsonField path into numericType =>
      have hpath : textOf "path" b.fields = path := h.textOf_eq rfl
      have hinto : textOf "variable" b.fields = into := h.textOf_eq rfl
      have htype : textOf "numeric_type" b.fields = numericType := h.textOf_eq rfl
      simp only [driver, Kind.ofFields, Kind.outletJsonFieldOf_ok_iff, hpath, hinto, htype]
      simp [needs, Shorthand.numericType, Shorthand.kind, and_assoc]

/-- An assertion that what needs no property equals a target. -/
theorem assertionOf_equals_ok_iff (subject : Subject) {target : String}
    (h : b.Gives .httpAssertion
      [("source", subject.name), ("comparison", "equals"), ("target", target)])
    (hproperty : subject.needsProperty = false)
    (hequals : Comparison.equals ∈ subject.comparisons) :
    Kind.assertionOf b.fields = .ok kind ↔
      target ≠ "" ∧ kind = .assertion (.general subject "" .equals target) := by
  have hsource : textOf "source" b.fields = subject.name := h.textOf_eq rfl
  have hempty : textOf "property" b.fields = "" := h.textOf_eq rfl
  have hcomparison : textOf "comparison" b.fields = Comparison.equals.name := h.textOf_eq rfl
  have htarget : textOf "target" b.fields = target := h.textOf_eq rfl
  rw [Kind.assertionOf_ok_iff_of_names hsource hcomparison, hempty, htarget]
  simp [hproperty, hequals, Comparison.needsTarget]

/-- What is accepted of the general kind. -/
theorem general_ofFields_ok_iff (h : b.Gives s.generalDriver s.generalFields) :
    Kind.ofFields s.generalDriver b.fields = .ok kind ↔
      (∀ text ∈ s.needs, text ≠ "") ∧
        ∃ numericType, NumericType.read s.numericType = .ok numericType ∧
          kind = s.generalKind numericType := by
  cases s with
  | statusCode equals =>
      simp only [generalDriver, Kind.ofFields,
        assertionOf_equals_ok_iff .statusCode h rfl (by decide)]
      simp [needs, numericType, NumericType.read_empty, Shorthand.generalKind]
  | body equals =>
      simp only [generalDriver, Kind.ofFields,
        assertionOf_equals_ok_iff .body h rfl (by decide)]
      simp [needs, numericType, NumericType.read_empty, Shorthand.generalKind]
  | outletHeader source into =>
      have hsource : textOf "source" b.fields = "header" := h.textOf_eq rfl
      have hproperty : textOf "property" b.fields = source := h.textOf_eq rfl
      have hinto : textOf "variable" b.fields = into := h.textOf_eq rfl
      have htype : textOf "numeric_type" b.fields = "" := h.textOf_eq rfl
      have hread : VariableSource.read "header" = .ok .header := rfl
      simp only [generalDriver, Kind.ofFields, Kind.responseVariableOf_ok_iff, hsource, hproperty,
        hinto, htype, hread]
      simp [needs, numericType, NumericType.read_empty, Shorthand.generalKind, and_left_comm,
        and_assoc]
  | outletJsonField path into numericType =>
      have hsource : textOf "source" b.fields = "json_body" := h.textOf_eq rfl
      have hproperty : textOf "property" b.fields = path := h.textOf_eq rfl
      have hinto : textOf "variable" b.fields = into := h.textOf_eq rfl
      have htype : textOf "numeric_type" b.fields = numericType := h.textOf_eq rfl
      have hread : VariableSource.read "json_body" = .ok .jsonBody := rfl
      simp only [generalDriver, Kind.ofFields, Kind.responseVariableOf_ok_iff, hsource, hproperty,
        hinto, htype, hread]
      simp [needs, Shorthand.numericType, Shorthand.generalKind, and_left_comm, and_assoc]

end Shorthand

/-- The same failure of another owner. -/
def Failure.of (owner : String) : Failure → Failure
  | .assertion _ mismatch => .assertion owner mismatch
  | .capture _ fault => .capture owner fault
  | e => e

namespace Template.Scope

variable {α : Type} (scope : Scope)

/-- A template that has no value fails its owner like any other. -/
theorem mapError_evaluate_bind (owner text : String) (f : String → Except Failure α) :
    (scope.evaluate text >>= f).mapError (Failure.of owner) =
      scope.evaluate text >>= fun value => (f value).mapError (Failure.of owner) := by
  rw [evaluate]
  cases expand (some scope) text <;> rfl

/-- The order of two templates matters only if neither has a value. -/
theorem evaluate_comm (a b : String) (f : String → String → Except Failure α) :
    (scope.evaluate a >>= fun x => scope.evaluate b >>= fun y => f x y) =
        (scope.evaluate b >>= fun y => scope.evaluate a >>= fun x => f x y) ∨
      ∃ e e', scope.evaluate a = .error e ∧ scope.evaluate b = .error e' := by
  cases scope.evaluate a with
  | error e =>
      cases scope.evaluate b with
      | error e' => exact .inr ⟨e, e', rfl, rfl⟩
      | ok y => exact .inl rfl
  | ok x => exact .inl rfl

end Template.Scope

theorem Assertion.mapError_judge (reference owner : String) (response : Option Response)
    (check : Response → Verdict) :
    (judge reference response check).mapError (Failure.of owner) = judge owner response check := by
  cases response with
  | none => rfl
  | some r =>
      simp only [judge]
      cases check r <;> rfl

namespace Capture

theorem mapError_bound (reference owner into : String)
    (found : Except PropertyFault (Option String)) :
    (bound reference into found).mapError (Failure.of owner) = bound owner into found := by
  cases found <;> rfl

/-- A capture that evaluates its templates in the other order. -/
theorem bound_comm (scope : Template.Scope) (reference owner property into : String)
    (find : String → Except PropertyFault (Option String))
    {short general : Except Failure (Option (String × String))}
    (hshort : short = do
      let property ← scope.evaluate property
      let into ← scope.evaluate into
      bound reference into (find property))
    (hgeneral : general = do
      let into ← scope.evaluate into
      let property ← scope.evaluate property
      bound owner into (find property)) :
    general = short.mapError (Failure.of owner) ∨
      ∃ e e', scope.evaluate property = .error e ∧ scope.evaluate into = .error e' ∧
        short = .error e ∧ general = .error e' := by
  rw [hshort, hgeneral]
  rcases scope.evaluate_comm property into fun property into =>
    bound owner into (find property) with hcomm | ⟨e, e', hproperty, hinto⟩
  · refine .inl ?_
    simp only [scope.mapError_evaluate_bind, mapError_bound]
    exact hcomm.symm
  · rw [hproperty, hinto]
    exact .inr ⟨e, e', rfl, rfl, rfl, rfl⟩

end Capture

namespace Shorthand

variable {s : Shorthand} {a : Assertion} {c : Capture} {numericType : NumericType}

/-- An empty property has itself as its value. -/
theorem general_check (scope : Template.Scope) (response : Option Response)
    (reference owner : String) {general : Assertion}
    (hs : s.kind numericType = .assertion a)
    (hgeneral : s.generalKind numericType = .assertion general) :
    general.check scope response owner =
      (a.check scope response reference).mapError (Failure.of owner) := by
  have hempty : scope.evaluate "" = .ok "" := scope.evaluate_plain (by decide)
  cases s with
  | statusCode equals | body equals =>
      cases hs
      cases hgeneral
      simp only [Assertion.check, scope.mapError_evaluate_bind, Assertion.mapError_judge, hempty]
      rfl
  | outletHeader source into => cases hs
  | outletJsonField path into numericType => cases hs

/-- The general kind evaluates the templates in the other order. -/
theorem general_assignment (scope : Template.Scope) (response : Option Response) (now : Instant)
    (reference owner : String) {general : Capture} (hs : s.kind numericType = .capture c)
    (hgeneral : s.generalKind numericType = .capture general) :
    general.assignment scope response now owner =
        (c.assignment scope response now reference).mapError (Failure.of owner) ∨
      ∃ x y e e', s.templates = some (x, y) ∧
        scope.evaluate x = .error e ∧ scope.evaluate y = .error e' ∧
        c.assignment scope response now reference = .error e ∧
        general.assignment scope response now owner = .error e' := by
  cases s with
  | statusCode equals => cases hs
  | body equals => cases hs
  | outletHeader source into =>
      cases hs
      cases hgeneral
      cases response with
      | none => exact .inl rfl
      | some response =>
          rcases Capture.bound_comm scope reference owner source into
            (VariableSource.header.find numericType response)
            (Capture.assignment_outletHeader ..) (Capture.assignment_response ..) with
            hsame | ⟨e, e', hx, hy, hshort, hgeneral⟩
          · exact .inl hsame
          · exact .inr ⟨source, into, e, e', rfl, hx, hy, hshort, hgeneral⟩
  | outletJsonField path into _ =>
      cases hs
      cases hgeneral
      cases response with
      | none => exact .inl rfl
      | some response =>
          rcases Capture.bound_comm scope reference owner path into
            (VariableSource.jsonBody.find numericType response)
            (Capture.assignment_outletJsonField ..) (Capture.assignment_response ..) with
            hsame | ⟨e, e', hx, hy, hshort, hgeneral⟩
          · exact .inl hsame
          · exact .inr ⟨path, into, e, e', rfl, hx, hy, hshort, hgeneral⟩

/-- A shorthand of an assertion stands for an assertion, one of a capture for a capture. -/
theorem kind_cases (s : Shorthand) (numericType : NumericType) :
    (∃ a general, s.kind numericType = .assertion a ∧
        s.generalKind numericType = .assertion general) ∨
      ∃ c general, s.kind numericType = .capture c ∧
        s.generalKind numericType = .capture general := by
  cases s with
  | statusCode equals | body equals => exact .inl ⟨_, _, rfl, rfl⟩
  | outletHeader source into => exact .inr ⟨_, _, rfl, rfl⟩
  | outletJsonField path into _ => exact .inr ⟨_, _, rfl, rfl⟩

/-- What the general kind comes to in the place of a shorthand. -/
theorem exec_general (transport : Transport) (clock : Clock) (family : Family) (i : Nat)
    {r g : Resource} (hr : r.kind = s.kind numericType) (hg : g.kind = s.generalKind numericType) :
    (family.exec transport clock i r).2 = (family.exec transport clock i g).2 ∧
      ((family.exec transport clock i g).1 =
          (family.exec transport clock i r).1.mapError (Failure.of g.reference) ∨
        ∃ x y e e', s.templates = some (x, y) ∧
          (family.scope i).evaluate x = .error e ∧ (family.scope i).evaluate y = .error e' ∧
          (family.exec transport clock i r).1 = .error e ∧
          (family.exec transport clock i g).1 = .error e') := by
  rcases s.kind_cases numericType with ⟨a, general, hs, hgeneral⟩ | ⟨c, general, hs, hgeneral⟩
  · rw [family.exec_assertion transport clock i (hr.trans hs),
      family.exec_assertion transport clock i (hg.trans hgeneral)]
    exact ⟨rfl, .inl (general_check _ _ _ _ hs hgeneral)⟩
  · rw [family.exec_capture transport clock i (hr.trans hs),
      family.exec_capture transport clock i (hg.trans hgeneral)]
    rcases general_assignment (family.scope i) (family.context i).response
      (clock family.world.captured) r.reference g.reference hs hgeneral with
      hsame | ⟨x, y, e, e', htemplates, hx, hy, hshort, hgeneral⟩
    · rw [hsame]
      cases c.assignment (family.scope i) (family.context i).response
          (clock family.world.captured) r.reference with
      | error e => exact ⟨rfl, .inl rfl⟩
      | ok binding => cases binding <;> exact ⟨rfl, .inl rfl⟩
    · rw [hshort, hgeneral]
      exact ⟨rfl, .inr ⟨x, y, e, e', htemplates, hx, hy, rfl, rfl⟩⟩

end Shorthand

/-- A failure names its owner. Where neither template of a capture has a value, the two kinds
report different ones. -/
theorem shorthands_agree (s : Shorthand) (short general : Block)
    (hshort : short.Gives s.driver s.fields)
    (hgeneral : general.Gives s.generalDriver s.generalFields) (id id' : String) :
    ((∃ r, Resource.ofBlock id short = .ok r) ↔ ∃ g, Resource.ofBlock id' general = .ok g) ∧
    ∀ r g, Resource.ofBlock id short = .ok r → Resource.ofBlock id' general = .ok g →
      ∀ (transport : Transport) (clock : Clock) (family : Family) (i : Nat),
        (family.exec transport clock i r).2 = (family.exec transport clock i g).2 ∧
        ((family.exec transport clock i r).1 = .ok () ↔
          (family.exec transport clock i g).1 = .ok ()) ∧
        ((family.exec transport clock i g).1 =
            (family.exec transport clock i r).1.mapError (Failure.of general.reference) ∨
          ∃ x y e e', s.templates = some (x, y) ∧
            (family.scope i).evaluate x = .error e ∧ (family.scope i).evaluate y = .error e' ∧
            (family.exec transport clock i r).1 = .error e ∧
            (family.exec transport clock i g).1 = .error e') := by
  refine ⟨?_, ?_⟩
  · rw [hshort.accepted_iff, hgeneral.accepted_iff]
    simp only [Shorthand.ofFields_ok_iff hshort, Shorthand.general_ofFields_ok_iff hgeneral]
    constructor
    · intro ⟨_, hneeds, numericType, hread, _⟩
      exact ⟨_, hneeds, numericType, hread, rfl⟩
    · intro ⟨_, hneeds, numericType, hread, _⟩
      exact ⟨_, hneeds, numericType, hread, rfl⟩
  · intro r g hr hg transport clock family i
    obtain ⟨_, _, hkind⟩ := hshort.ofBlock_ok_iff.mp hr
    obtain ⟨_, hblock, hkind'⟩ := hgeneral.ofBlock_ok_iff.mp hg
    obtain ⟨_, numericType, hread, hkind⟩ := (Shorthand.ofFields_ok_iff hshort).mp hkind
    obtain ⟨_, numericType', hread', hkind'⟩ :=
      (Shorthand.general_ofFields_ok_iff hgeneral).mp hkind'
    cases hread.symm.trans hread'
    have hreference : g.reference = general.reference := congrArg Block.reference hblock
    obtain ⟨hfamily, houtcome⟩ := Shorthand.exec_general transport clock family i hkind hkind'
    rw [hreference] at houtcome
    refine ⟨hfamily, ?_, houtcome⟩
    rcases houtcome with hsame | ⟨_, _, _, _, _, _, _, hshort, hgeneral⟩
    · rw [hsame]
      cases (family.exec transport clock i r).1 with
      | error e => exact ⟨nofun, nofun⟩
      | ok _ => exact ⟨fun _ => rfl, fun _ => rfl⟩
    · rw [hshort, hgeneral]
      exact ⟨nofun, nofun⟩

/-- The last path counts, and the list at it has no text. -/
theorem sample_shorthands_agree :
    let short := Block.ofTexts "http_outlet_json_field" "a"
      [("path", "m"), ("variable", "x"), ("path", "n"), ("note", "")]
    let general := Block.ofTexts "http_variable" "a"
      [("property", "n"), ("source", "json_body"), ("variable", "x")]
    let s := Shorthand.outletJsonField "n" "x" ""
    let r : Resource := ⟨"1", short, .capture (.outletJsonField "n" "x" .float)⟩
    let g : Resource := ⟨"2", general, .capture (.response .jsonBody "n" "x" .float)⟩
    let transport : Transport := fun _ _ => .ok ⟨200, [], []⟩
    let clock : Clock := fun n => ⟨n, 0⟩
    let family := Family.alone .empty
      ⟨.empty, some ⟨200, [], Text.encode "\x7b\"m\": 1, \"n\": []\x7d"⟩⟩ .initial
    short.Gives s.driver s.fields ∧ general.Gives s.generalDriver s.generalFields ∧
      Resource.ofBlock "1" short = .ok r ∧ Resource.ofBlock "2" general = .ok g ∧
      (family.exec transport clock 0 r).1 =
        .error (.capture "resource.http_outlet_json_field.a" .compound) ∧
      (family.exec transport clock 0 g).1 =
        .error (.capture "resource.http_variable.a" .compound) := by
  intro short general s r g transport clock family
  have hshort : short.Gives s.driver s.fields := ⟨rfl, rfl, by decide⟩
  have hgeneral : general.Gives s.generalDriver s.generalFields := ⟨rfl, rfl, by decide⟩
  have hr : Resource.ofBlock "1" short = .ok r := rfl
  have hg : Resource.ofBlock "2" general = .ok g := rfl
  have herror : (family.exec transport clock 0 r).1 =
      .error (.capture "resource.http_outlet_json_field.a" .compound) := by decide +kernel
  obtain ⟨_, hagree⟩ := shorthands_agree s short general hshort hgeneral "1" "2"
  obtain ⟨_, _, hsame | ⟨_, _, _, _, htemplates, hx, _⟩⟩ :=
    hagree r g hr hg transport clock family 0
  · rw [herror] at hsame
    exact ⟨hshort, hgeneral, hr, hg, herror, hsame⟩
  · cases htemplates
    rw [Template.Scope.evaluate_plain _ (by decide)] at hx
    cases hx

end HttpSuite
