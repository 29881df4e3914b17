import HttpSuite.Proofs.Loading
import HttpSuite.Proofs.Execution

/-!
What blocks the kinds accept. A block whose known fields have their shapes is accepted on the last
values of these fields alone, and the resource holds them.
-/

namespace HttpSuite

section Steps

variable {ε α : Type} {rest : Except ε α} {a b : α}

theorem pure_ok_iff : (pure b : Except ε α) = .ok a ↔ a = b :=
  ⟨fun h => (Except.ok.inj h).symm, fun h => congrArg Except.ok h.symm⟩

theorem throw_ok_iff {e : ε} : (throw e : Except ε α) = .ok a ↔ False :=
  ⟨nofun, False.elim⟩

theorem check_ok_iff {check : Except ε PUnit} :
    (check >>= fun _ => rest) = .ok a ↔ check = .ok ⟨⟩ ∧ rest = .ok a := by
  rw [bind_eq_ok_iff]
  exact ⟨fun ⟨_, hcheck, hrest⟩ => ⟨hcheck, hrest⟩, fun ⟨hcheck, hrest⟩ => ⟨⟨⟩, hcheck, hrest⟩⟩

/-- A check that is made under a condition. -/
theorem when_ok_iff {p : Prop} [Decidable p] {check : Except ε PUnit} :
    (if p then check >>= fun _ => rest else rest) = .ok a ↔
      (p → check = .ok ⟨⟩) ∧ rest = .ok a := by
  split
  · next h => simp only [check_ok_iff, h, true_imp_iff]
  · next h => simp only [h, false_imp_iff, true_and]

end Steps

theorem needed_ok_iff {field value : String} : needed field value = .ok () ↔ value ≠ "" := by
  rw [needed, ne_eq, ← String.isEmpty_iff]
  cases value.isEmpty <;> simp

theorem Subject.ofName?_eq_some_iff {name : String} {s : Subject} :
    ofName? name = some s ↔ s.name = name :=
  find?_name_eq_some_iff fun s => by cases s <;> rfl

theorem Comparison.ofName?_eq_some_iff {name : String} {c : Comparison} :
    ofName? name = some c ↔ c.name = name :=
  find?_name_eq_some_iff fun c => by cases c <;> rfl

theorem Subject.name_inj {s t : Subject} : s.name = t.name ↔ s = t := by
  rw [← ofName?_eq_some_iff, ofName?_eq_some_iff.mpr rfl, Option.some.injEq, eq_comm]

theorem Comparison.name_inj {c d : Comparison} : c.name = d.name ↔ c = d := by
  rw [← ofName?_eq_some_iff, ofName?_eq_some_iff.mpr rfl, Option.some.injEq, eq_comm]

theorem Subject.read_ok_iff {value : String} {s : Subject} :
    Subject.read value = .ok s ↔ s.name = value := by
  rw [← ofName?_eq_some_iff, Subject.read]
  cases ofName? value <;> simp

theorem Comparison.read_ok_iff {subject : Subject} {value : String} {c : Comparison} :
    Comparison.read subject value = .ok c ↔ c.name = value ∧ c ∈ subject.comparisons := by
  have hfilter := Option.filter_eq_some_iff (o := ofName? value) (a := c)
    (p := fun c => subject.comparisons.contains c)
  rw [List.contains_iff_mem, ofName?_eq_some_iff] at hfilter
  rw [← hfilter, Comparison.read]
  cases (ofName? value).filter _ <;> simp

namespace Kind

variable {fields : List Field} {kind : Kind}

theorem statusCodeOf_ok_iff :
    statusCodeOf fields = .ok kind ↔
      textOf "equals" fields ≠ "" ∧ kind = .assertion (.statusCode (textOf "equals" fields)) := by
  simp only [statusCodeOf, check_ok_iff, needed_ok_iff, pure_ok_iff]

theorem bodyOf_ok_iff :
    bodyOf fields = .ok kind ↔
      textOf "equals" fields ≠ "" ∧ kind = .assertion (.body (textOf "equals" fields)) := by
  simp only [bodyOf, check_ok_iff, needed_ok_iff, pure_ok_iff]

theorem assertionOf_ok_iff :
    assertionOf fields = .ok kind ↔
      ∃ subject, subject.name = textOf "source" fields ∧
        (subject.needsProperty = true → textOf "property" fields ≠ "") ∧
        ∃ comparison, (comparison.name = textOf "comparison" fields ∧
          comparison ∈ subject.comparisons) ∧
          (comparison.needsTarget = true → textOf "target" fields ≠ "") ∧
          kind = .assertion (.general subject (textOf "property" fields) comparison
            (textOf "target" fields)) := by
  simp only [assertionOf, bind_eq_ok_iff, when_ok_iff, needed_ok_iff, Subject.read_ok_iff,
    Comparison.read_ok_iff, throw_ok_iff, pure_ok_iff, Bool.and_eq_true, String.isEmpty_iff,
    not_and, ne_eq, imp_false]

theorem assertionOf_ok_iff_of_names {subject : Subject} {comparison : Comparison}
    (hsubject : textOf "source" fields = subject.name)
    (hcomparison : textOf "comparison" fields = comparison.name) :
    assertionOf fields = .ok kind ↔
      (subject.needsProperty = true → textOf "property" fields ≠ "") ∧
        comparison ∈ subject.comparisons ∧
        (comparison.needsTarget = true → textOf "target" fields ≠ "") ∧
        kind = .assertion (.general subject (textOf "property" fields) comparison
          (textOf "target" fields)) := by
  simp only [assertionOf_ok_iff, hsubject, hcomparison, Subject.name_inj, Comparison.name_inj,
    exists_eq_left, and_assoc]

theorem systemVariableOf_ok_iff :
    systemVariableOf fields = .ok kind ↔
      textOf "source" fields ≠ "" ∧ textOf "variable" fields ≠ "" ∧
        textOf "source" fields = "time" ∧
        ∃ format, TimeFormat.read (textOf "format" fields) = .ok format ∧
          kind = .capture (.time (textOf "variable" fields) format) := by
  simp only [systemVariableOf, check_ok_iff, needed_ok_iff, when_ok_iff, throw_ok_iff, ne_eq,
    imp_false, not_not]
  simp only [bind_eq_ok_iff, pure_ok_iff]

theorem outletHeaderOf_ok_iff :
    outletHeaderOf fields = .ok kind ↔
      textOf "source" fields ≠ "" ∧ textOf "variable" fields ≠ "" ∧
        kind = .capture (.outletHeader (textOf "source" fields) (textOf "variable" fields)) := by
  simp only [outletHeaderOf, check_ok_iff, needed_ok_iff, pure_ok_iff]

theorem outletJsonFieldOf_ok_iff :
    outletJsonFieldOf fields = .ok kind ↔
      textOf "path" fields ≠ "" ∧ textOf "variable" fields ≠ "" ∧
        ∃ numericType, NumericType.read (textOf "numeric_type" fields) = .ok numericType ∧
          kind = .capture (.outletJsonField (textOf "path" fields) (textOf "variable" fields)
            numericType) := by
  simp only [outletJsonFieldOf, check_ok_iff, needed_ok_iff]
  simp only [bind_eq_ok_iff, pure_ok_iff]

theorem responseVariableOf_ok_iff :
    responseVariableOf fields = .ok kind ↔
      textOf "source" fields ≠ "" ∧ textOf "variable" fields ≠ "" ∧
        textOf "property" fields ≠ "" ∧
        ∃ numericType, NumericType.read (textOf "numeric_type" fields) = .ok numericType ∧
          ∃ source, VariableSource.read (textOf "source" fields) = .ok source ∧
            kind = .capture (.response source (textOf "property" fields) (textOf "variable" fields)
              numericType) := by
  simp only [responseVariableOf, check_ok_iff, needed_ok_iff]
  simp only [bind_eq_ok_iff, pure_ok_iff]

/-- Only one driver makes general assertions. -/
theorem ofFields_general {driver : Driver} {subject : Subject} {property target : String}
    {c : Comparison}
    (h : ofFields driver fields = .ok (.assertion (.general subject property c target))) :
    assertionOf fields = .ok (.assertion (.general subject property c target)) := by
  cases driver with
  | httpAssertion => exact h
  | httpStep =>
      simp only [ofFields, stepOf, check_ok_iff, pure_ok_iff] at h
      obtain ⟨_, _, hkind⟩ := h
      cases hkind
  | httpTest => cases h
  | statusCodeAssertion =>
      obtain ⟨_, hkind⟩ := statusCodeOf_ok_iff.mp h
      cases hkind
  | bodyAssertion =>
      obtain ⟨_, hkind⟩ := bodyOf_ok_iff.mp h
      cases hkind
  | httpVariable =>
      obtain ⟨_, _, _, _, _, _, _, hkind⟩ := responseVariableOf_ok_iff.mp h
      cases hkind
  | systemVariable =>
      obtain ⟨_, _, _, _, _, hkind⟩ := systemVariableOf_ok_iff.mp h
      cases hkind
  | outletHeader =>
      obtain ⟨_, _, hkind⟩ := outletHeaderOf_ok_iff.mp h
      cases hkind
  | outletJsonField =>
      obtain ⟨_, _, _, _, hkind⟩ := outletJsonFieldOf_ok_iff.mp h
      cases hkind

end Kind

theorem NumericType.read_empty : NumericType.read "" = .ok .float := rfl

/-- A block whose fields are these texts. -/
def Block.ofTexts (driver name : String) (texts : List (String × String)) : Block where
  id := ⟨"resource", ⟨0, 0⟩⟩
  driver := ⟨driver, ⟨0, 0⟩⟩
  name := ⟨name, ⟨0, 0⟩⟩
  fields := texts.map fun f => ⟨⟨f.1, ⟨0, 0⟩⟩, .text ⟨f.2, ⟨0, 0⟩⟩, ⟨0, 0⟩⟩
  span := ⟨0, 0⟩

/-- A block of a driver gives the fields that the driver knows these texts. A field without a text
is empty or not there. -/
structure Block.Gives (b : Block) (driver : Driver) (texts : List (String × String)) : Prop where
  named : b.driver.text = driver.name
  shaped : driver.schema.check b.fields = .ok ()
  holds : ∀ f ∈ driver.schema, textOf f.1 b.fields = (texts.lookup f.1).getD ""

namespace Block.Gives

variable {b : Block} {driver : Driver} {texts : List (String × String)}

theorem textOf_eq (h : b.Gives driver texts) {name : String} {shape : Shape}
    (hname : driver.schema.lookup name = some shape) :
    textOf name b.fields = (texts.lookup name).getD "" := by
  obtain ⟨before, after, hschema, _⟩ := List.lookup_eq_some_iff.mp hname
  apply h.holds (name, shape)
  rw [hschema]
  exact List.mem_append_right before List.mem_cons_self

theorem ofBlock_ok_iff (h : b.Gives driver texts) {id : String} {r : Resource} :
    Resource.ofBlock id b = .ok r ↔
      r.id = id ∧ r.block = b ∧ Kind.ofFields driver b.fields = .ok r.kind := by
  have hdriver := Driver.ofName?_eq_some_iff.mpr h.named.symm
  have hbuild : Kind.build driver b.fields = Kind.ofFields driver b.fields := by
    rw [Kind.build, h.shaped]
  rw [Resource.ofBlock, hdriver, ← hbuild]
  exact Resource.build_ok_iff

theorem accepted_iff (h : b.Gives driver texts) {id : String} :
    (∃ r, Resource.ofBlock id b = .ok r) ↔ ∃ kind, Kind.ofFields driver b.fields = .ok kind := by
  simp only [h.ofBlock_ok_iff]
  constructor
  · intro ⟨r, _, _, hkind⟩
    exact ⟨r.kind, hkind⟩
  · intro ⟨kind, hkind⟩
    exact ⟨⟨id, b, kind⟩, rfl, rfl, hkind⟩

end Block.Gives
end HttpSuite
