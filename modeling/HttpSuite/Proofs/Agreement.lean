import HttpSuite.Proofs.Expansion
import HttpSuite.Proofs.Leaves
import HttpSuite.Proofs.Verdicts

/-!
Captures and assertions on the same field agree. What a capture binds to a variable is what an
assertion finds at the same place of the response, so it holds when its target is the variable. A
JSON field that cannot be captured as text cannot be compared as text either, for the same reason.
-/

namespace HttpSuite

open Template in
theorem Template.Scope.evaluate_plain (scope : Scope) {text : String}
    (h : ¬ mark <:+: text.toList) : scope.evaluate text = .ok text := by
  have hvalue : StandsFor (some scope) text.toList text :=
    (standsFor_plain (Text.cutAt?_eq_none_iff.mpr h)).mpr String.ofList_toList.symm
  rw [StandsFor, String.ofList_toList] at hvalue
  rw [evaluate, hvalue]

open Template in
theorem Template.Scope.evaluate_variable (scope : Scope) {name : String}
    (hname : '}' ∉ name.toList) (hlast : ∀ c ∈ name.toList.getLast?, Text.isBlank c = false) :
    scope.evaluate (variableReference name) = .ok ((scope.bindings.get? name).getD "") := by
  rw [evaluate, expand_variable scope hname hlast]

namespace VariableSource

/-- The part of a response that a source reads. -/
def subject : VariableSource → Subject
  | .jsonBody => .jsonBody
  | .header => .header

/-- What a source has under a property, if it has anything. -/
def find (source : VariableSource) (numericType : NumericType) (response : Response)
    (property : String) : Except PropertyFault (Option String) :=
  match source with
  | .header => .ok (response.headers.get? property)
  | .jsonBody => (Json.propertyText numericType response.body property).map some

/-- A JSON field that is found has a text. -/
theorem find_jsonBody_some {numericType : NumericType} {response : Response} {property : String}
    {found : Option String}
    (h : jsonBody.find numericType response property = .ok found) :
    ∃ value, found = some value := by
  rw [find] at h
  cases htext : Json.propertyText numericType response.body property with
  | error fault =>
      rw [htext] at h
      cases h
  | ok value =>
      rw [htext] at h
      exact ⟨value, (Except.ok.inj h).symm⟩

/-- An assertion that a property equals a target compares the text that a capture finds. -/
theorem check_equals (source : VariableSource) (property target : String) (response : Response) :
    source.subject.check property .equals target response =
      match source.find .float response property with
      | .error fault => .error (.property fault)
      | .ok value => Comparison.equals.checkText (value.getD "") target := by
  cases source with
  | header => rfl
  | jsonBody =>
      simp only [subject, Subject.check, find, Json.propertyText]
      cases Json.property response.body property with
      | error fault => rfl
      | ok item =>
          simp only [Comparison.checkJson]
          cases item.scalarText .float <;> rfl

end VariableSource

namespace Capture

variable (scope : Template.Scope) (response : Response) (now : Instant) (reference : String)

/-- What becomes of what a capture finds. -/
def bound (reference into : String) :
    Except PropertyFault (Option String) → Except Failure (Option (String × String))
  | .error fault => .error (.capture reference fault)
  | .ok value => .ok (value.map fun v => (into, v))

theorem assignment_response (source : VariableSource) (property into : String)
    (numericType : NumericType) :
    (Capture.response source property into numericType).assignment scope (some response) now
        reference = (do
      let into ← scope.evaluate into
      let property ← scope.evaluate property
      bound reference into (source.find numericType response property)) := by
  cases source with
  | header => rfl
  | jsonBody =>
      simp only [assignment, VariableSource.find, fieldText]
      congr
      funext into
      congr
      funext property
      cases Json.propertyText numericType response.body property <;> rfl

theorem assignment_outletHeader (source into : String) (numericType : NumericType) :
    (Capture.outletHeader source into).assignment scope (some response) now reference = (do
      let name ← scope.evaluate source
      let into ← scope.evaluate into
      bound reference into (VariableSource.header.find numericType response name)) := rfl

theorem assignment_outletJsonField (path into : String) (numericType : NumericType) :
    (Capture.outletJsonField path into numericType).assignment scope (some response) now
        reference = (do
      let path ← scope.evaluate path
      let into ← scope.evaluate into
      bound reference into (VariableSource.jsonBody.find numericType response path)) := by
  simp only [assignment, VariableSource.find, fieldText]
  congr
  funext path
  congr
  funext into
  cases Json.propertyText numericType response.body path <;> rfl

end Capture

namespace Family

variable {family : Family} {i : Nat} {response : Response}

/-- A context with a response is there. -/
theorem getElem?_context (h : (family.context i).response = some response) :
    family.contexts[i]? = some (family.context i) := by
  rw [context] at h ⊢
  cases hcontext : family.contexts[i]? with
  | none =>
      rw [hcontext] at h
      cases h
  | some c => rfl

theorem capture_context (h : (family.context i).response = some response) (name value : String) :
    (family.capture i name value).context i =
      { family.context i with bindings := (family.context i).bindings.set name value } := by
  have hcontext := getElem?_context h
  simp only [capture, setVariable, update]
  rw [context, List.getElem?_modify_eq, hcontext]
  rfl

/-- A capture whose templates stand for themselves binds what it finds. -/
theorem exec_response_capture (transport : Transport) (clock : Clock)
    (hresponse : (family.context i).response = some response) {source : VariableSource}
    {property into : String} {numericType : NumericType}
    (hproperty : ¬ Template.mark <:+: property.toList) (hinto : ¬ Template.mark <:+: into.toList)
    {c : Resource} (hc : c.kind = .capture (.response source property into numericType)) :
    family.exec transport clock i c =
      match source.find numericType response property with
      | .error fault => (.error (.capture c.reference fault), family)
      | .ok none => (.ok (), family)
      | .ok (some value) => (.ok (), family.capture i into value) := by
  have hbound : ∀ scope : Template.Scope, ∀ now,
      (Capture.response source property into numericType).assignment scope (some response) now
        c.reference =
      Capture.bound c.reference into (source.find numericType response property) := by
    intro scope now
    rw [Capture.assignment_response, scope.evaluate_plain hinto, scope.evaluate_plain hproperty]
    rfl
  rw [family.exec_capture transport clock i hc, hresponse, hbound]
  cases source.find numericType response property with
  | error fault => rfl
  | ok value => cases value <;> rfl

/-- The verdict of an assertion that a property equals what a variable holds. -/
theorem exec_equals_variable (transport : Transport) (clock : Clock)
    (hresponse : (family.context i).response = some response) (source : VariableSource)
    {property name : String} (hproperty : ¬ Template.mark <:+: property.toList)
    (hbrace : '}' ∉ name.toList) (hlast : ∀ c ∈ name.toList.getLast?, Text.isBlank c = false)
    {a : Resource} (ha : a.kind = .assertion
      (.general source.subject property .equals (Template.variableReference name))) :
    (family.exec transport clock i a).1 =
      Assertion.judge a.reference (some response) (source.subject.check property .equals
        (((family.context i).bindings.get? name).getD "")) := by
  rw [family.exec_assertion transport clock i ha, hresponse, Assertion.check,
    Template.Scope.evaluate_variable _ hbrace hlast, Template.Scope.evaluate_plain _ hproperty]
  rfl

/-- An assertion that a property equals a variable holds once the variable is bound to what the
source has under the property. -/
theorem exec_equals_captured (transport : Transport) (clock : Clock)
    (hresponse : (family.context i).response = some response) (source : VariableSource)
    {property name value : String} (hproperty : ¬ Template.mark <:+: property.toList)
    (hbrace : '}' ∉ name.toList) (hlast : ∀ c ∈ name.toList.getLast?, Text.isBlank c = false)
    {a : Resource} (ha : a.kind = .assertion
      (.general source.subject property .equals (Template.variableReference name)))
    (hfind : source.find .float response property = .ok (some value)) :
    ((family.capture i name value).exec transport clock i a).1 = .ok () := by
  have hcontext := capture_context hresponse name value
  have hafter : ((family.capture i name value).context i).response = some response := by
    rw [hcontext]
    exact hresponse
  rw [exec_equals_variable transport clock hafter source hproperty hbrace hlast ha, hcontext,
    Bindings.get?_set, if_pos rfl]
  refine Assertion.judge_ok_iff.mpr ⟨response, rfl, ?_⟩
  rw [source.check_equals, hfind]
  exact Comparison.checkText_equals_ok_iff.mpr rfl

end Family

/-- The text of the assertion's failure is that of the capture's. -/
theorem captured_fields_satisfy_assertions (transport : Transport) (clock : Clock)
    (family : Family) (i : Nat) (response : Response)
    (hresponse : (family.context i).response = some response) (p x : String)
    (hp : ¬ Template.mark <:+: p.toList) (hx : ¬ Template.mark <:+: x.toList)
    (hbrace : '}' ∉ x.toList) (hlast : ∀ c ∈ x.toList.getLast?, Text.isBlank c = false) :
    (∀ c a : Resource, c.kind = .capture (.response .jsonBody p x .float) →
      a.kind = .assertion (.general .jsonBody p .equals (Template.variableReference x)) →
      ((family.exec transport clock i c).1 = .ok () →
        ((family.exec transport clock i c).2.exec transport clock i a).1 = .ok ()) ∧
      ∀ e, (family.exec transport clock i c).1 = .error e →
        ∃ fault mismatch, e = .capture c.reference fault ∧
          (family.exec transport clock i a).1 = .error (.assertion a.reference mismatch) ∧
          mismatch.message = fault.message) ∧
    ∀ (c a : Resource) (numericType : NumericType),
      c.kind = .capture (.response .header p x numericType) →
      a.kind = .assertion (.general .header p .equals (Template.variableReference x)) →
      (response.headers.get? p).isSome = true →
        (family.exec transport clock i c).1 = .ok () ∧
        ((family.exec transport clock i c).2.exec transport clock i a).1 = .ok () := by
  refine ⟨?_, ?_⟩
  · intro c a hc ha
    have hcapture := family.exec_response_capture transport clock hresponse hp hx hc
    cases hfind : VariableSource.jsonBody.find .float response p with
    | error fault =>
        rw [hfind] at hcapture
        rw [hcapture]
        refine ⟨nofun, ?_⟩
        intro e he
        cases he
        refine ⟨fault, .property fault, rfl, ?_, rfl⟩
        rw [family.exec_equals_variable transport clock hresponse .jsonBody hp hbrace hlast ha]
        simp only [Assertion.judge, VariableSource.check_equals, hfind]
    | ok found =>
        obtain ⟨value, rfl⟩ := VariableSource.find_jsonBody_some hfind
        rw [hfind] at hcapture
        rw [hcapture]
        refine ⟨fun _ => ?_, ?_⟩
        · exact Family.exec_equals_captured transport clock hresponse .jsonBody hp hbrace hlast ha
            hfind
        · intro e he
          cases he
  · intro c a numericType hc ha hpresent
    obtain ⟨value, hvalue⟩ := Option.isSome_iff_exists.mp hpresent
    have hfind : ∀ k, VariableSource.header.find k response p = .ok (some value) :=
      fun _ => congrArg Except.ok hvalue
    rw [family.exec_response_capture transport clock hresponse hp hx hc, hfind]
    refine ⟨rfl, ?_⟩
    exact Family.exec_equals_captured transport clock hresponse .header hp hbrace hlast ha
      (hfind .float)

/-- The field looks like a reference, and the list around it has no text. -/
theorem sample_captured_fields :
    let captures (property : String) := Resource.bare "1" "http_variable" "capture"
      (.capture (.response .jsonBody property "x" .float))
    let equals (property : String) := Resource.bare "2" "http_assertion" "equals"
      (.assertion (.general .jsonBody property .equals (Template.variableReference "x")))
    let tag := Resource.bare "3" "http_variable" "tag" (.capture (.response .header "etag" "x" .int))
    let tagEquals := Resource.bare "4" "http_assertion" "tag"
      (.assertion (.general .header "etag" .equals (Template.variableReference "x")))
    let transport : Transport := fun _ _ => .ok ⟨200, [], []⟩
    let clock : Clock := fun n => ⟨n, 0⟩
    let response : Response :=
      ⟨200, [("ETag", "7")], Text.encode "\x7b\"n\": [1.5, \"$\x7bvar.b\x7d\"]\x7d"⟩
    let family := Family.alone ⟨[captures "n"]⟩ ⟨.empty, some response⟩ .initial
    (family.context 0).response = some response ∧
      ¬ Template.mark <:+: "n[1]".toList ∧ ¬ Template.mark <:+: "x".toList ∧
      '}' ∉ "x".toList ∧ (∀ c ∈ "x".toList.getLast?, Text.isBlank c = false) ∧
      (family.exec transport clock 0 (captures "n[1]")).1 = .ok () ∧
      ((family.exec transport clock 0 (captures "n[1]")).2.exec transport clock 0
        (equals "n[1]")).1 = .ok () ∧
      (family.exec transport clock 0 (captures "n")).1 =
        .error (.capture "resource.http_variable.capture" .compound) ∧
      (∃ mismatch, (family.exec transport clock 0 (equals "n")).1 =
          .error (.assertion "resource.http_assertion.equals" mismatch) ∧
        mismatch.message = "complex JSON fields are not supported") ∧
      ((family.exec transport clock 0 tag).2.exec transport clock 0 tagEquals).1 = .ok () := by
  intro captures equals tag tagEquals transport clock response family
  have hplain : ∀ text ∈ ["n", "n[1]", "etag", "x"], ¬ Template.mark <:+: text.toList := by
    decide
  have hbrace : '}' ∉ "x".toList := by decide
  have hlast : ∀ c ∈ "x".toList.getLast?, Text.isBlank c = false := by
    rintro _ ⟨⟩
    decide
  have hok : (family.exec transport clock 0 (captures "n[1]")).1 = .ok () := by decide +kernel
  have herror : (family.exec transport clock 0 (captures "n")).1 =
      .error (.capture "resource.http_variable.capture" .compound) := by decide +kernel
  have hagree (p : String) (hp : ¬ Template.mark <:+: p.toList) :=
    captured_fields_satisfy_assertions transport clock family 0 response rfl p "x" hp
      (hplain "x" (by simp)) hbrace hlast
  obtain ⟨hfield, _⟩ := hagree "n[1]" (hplain _ (by simp))
  obtain ⟨hlist, _⟩ := hagree "n" (hplain _ (by simp))
  obtain ⟨_, hheader⟩ := hagree "etag" (hplain _ (by simp))
  obtain ⟨fault, mismatch, hfault, hfails, hmessage⟩ :=
    (hlist (captures "n") (equals "n") rfl rfl).2 _ herror
  cases hfault
  exact ⟨rfl, hplain _ (by simp), hplain _ (by simp), hbrace, hlast, hok,
    (hfield (captures "n[1]") (equals "n[1]") rfl rfl).1 hok, herror, ⟨mismatch, hfails, hmessage⟩,
    (hheader tag tagEquals .int rfl rfl rfl).2⟩

end HttpSuite
