import HttpSuite.Proofs.Acceptance
import HttpSuite.Proofs.Reports
import HttpSuite.Resource.Gather

/-!
What a block is built from. Each driver accepts a block if all fields that it knows have their
shapes and the last values of these fields follow its rules; what it makes holds these values and
nothing else. So other fields, and the order of fields with different names, come to nothing. One
pass over the fields that keeps the last of each name builds the same.
-/

namespace HttpSuite

/-- The values of a shape. -/
inductive Shape.Fits : Shape → FieldValue → Prop
  | text (literal : Literal) : Fits .text (.text literal)
  | list (items : List Literal) (span : Span) : Fits .list (.list items span)
  | pairs {items : List Literal} (span : Span) (heven : items.length % 2 = 0) :
      Fits .pairs (.list items span)

def NumericType.spellings : NumericType → List String
  | int => ["int"]
  | float => ["", "float"]

def TimeFormat.spellings : TimeFormat → List String
  | unixNano => ["", "unixnano"]
  | unix => ["unix"]
  | rfc3339 => ["rfc3339"]

def VariableSource.name : VariableSource → String
  | jsonBody => "json_body"
  | header => "header"

/-- What a driver makes of the texts and lists of its fields, where a field that is not given is
empty. -/
inductive Driver.Makes (text : String → String) (items : String → List String) :
    Driver → Kind → Prop
  | httpStep {headers : List (String × String)}
      (hmethod : text "method" ≠ "") (hurl : text "url" ≠ "")
      (hheaders : headers.flatMap (fun h => [h.1, h.2]) = items "headers") :
      Makes text items .httpStep (.step
        { method := text "method", url := text "url", body := text "body", headers
          assertions := (items "assertions").map .unresolved
          captures := (items "variables").map .unresolved })
  | httpTest : Makes text items .httpTest (.test ((items "steps").map .unresolved))
  | httpAssertion {subject : Subject} {comparison : Comparison}
      (hsource : subject.name = text "source")
      (hproperty : subject.needsProperty = true → text "property" ≠ "")
      (hcomparison : comparison.name = text "comparison")
      (hlisted : comparison ∈ subject.comparisons)
      (htarget : comparison.needsTarget = true → text "target" ≠ "") :
      Makes text items .httpAssertion
        (.assertion (.general subject (text "property") comparison (text "target")))
  | statusCodeAssertion (hequals : text "equals" ≠ "") :
      Makes text items .statusCodeAssertion (.assertion (.statusCode (text "equals")))
  | bodyAssertion (hequals : text "equals" ≠ "") :
      Makes text items .bodyAssertion (.assertion (.body (text "equals")))
  | httpVariable {source : VariableSource} {numericType : NumericType}
      (hsource : source.name = text "source") (hvariable : text "variable" ≠ "")
      (hproperty : text "property" ≠ "")
      (htype : text "numeric_type" ∈ numericType.spellings) :
      Makes text items .httpVariable
        (.capture (.response source (text "property") (text "variable") numericType))
  | systemVariable {format : TimeFormat}
      (hsource : text "source" = "time") (hvariable : text "variable" ≠ "")
      (hformat : text "format" ∈ format.spellings) :
      Makes text items .systemVariable (.capture (.time (text "variable") format))
  | outletHeader (hsource : text "source" ≠ "") (hvariable : text "variable" ≠ "") :
      Makes text items .outletHeader
        (.capture (.outletHeader (text "source") (text "variable")))
  | outletJsonField {numericType : NumericType}
      (hpath : text "path" ≠ "") (hvariable : text "variable" ≠ "")
      (htype : text "numeric_type" ∈ numericType.spellings) :
      Makes text items .outletJsonField
        (.capture (.outletJsonField (text "path") (text "variable") numericType))

/-- Fields with different names change places, and fields that the schema does not know come in. -/
inductive Schema.Rearranged (schema : Schema) : List Field → List Field → Prop
  | refl (fields : List Field) : Rearranged schema fields fields
  | swap (before after : List Field) (f g : Field) (h : f.name.name ≠ g.name.name) :
      Rearranged schema (before ++ f :: g :: after) (before ++ g :: f :: after)
  | add (before after : List Field) (f : Field) (h : schema.lookup f.name.name = none) :
      Rearranged schema (before ++ after) (before ++ f :: after)
  | trans {fields fields' fields'' : List Field} (h : Rearranged schema fields fields')
      (h' : Rearranged schema fields' fields'') : Rearranged schema fields fields''

/-! The last value of a name. -/

section LastValue

variable {name : String} {fields : List Field}

theorem lastValue?_concat (name : String) (fields : List Field) (f : Field) :
    lastValue? name (fields ++ [f]) =
      if f.name.name = name then some f.value else lastValue? name fields := by
  rw [lastValue?, find?_reverse_concat, apply_ite (Option.map Field.value)]
  simp only [beq_iff_eq]
  rfl

theorem lastValue?_cons (name : String) (f : Field) (more : List Field) :
    lastValue? name (f :: more) =
      (lastValue? name more).or (if f.name.name = name then some f.value else none) := by
  rw [lastValue?, find?_reverse_cons, Option.map_or, apply_ite (Option.map Field.value)]
  simp only [beq_iff_eq]
  rfl

/-- Fields with other names do not matter. -/
theorem lastValue?_filter {keeps : Field → Bool} (h : ∀ f, f.name.name = name → keeps f = true) :
    lastValue? name (fields.filter keeps) = lastValue? name fields := by
  rw [lastValue?, lastValue?, ← List.filter_reverse, List.find?_filter]
  congr 2
  funext f
  by_cases hf : f.name.name = name
  · simp only [h f hf, hf, true_and, beq_self_eq_true, decide_true]
  · simp only [beq_eq_false_iff_ne.mpr hf, Bool.false_eq_true, and_false, decide_false]

theorem lastValue?_eq_some_iff {value : FieldValue} :
    lastValue? name fields = some value ↔
      ∃ before f after, fields = before ++ f :: after ∧ f.name.name = name ∧ f.value = value ∧
        ∀ g ∈ after, g.name.name ≠ name := by
  rw [lastValue?, Option.map_eq_some_iff]
  constructor
  · intro h
    obtain ⟨f, hfind, hvalue⟩ := h
    obtain ⟨hname, before, after, hreverse, hbefore⟩ := List.find?_eq_some_iff_append.mp hfind
    refine ⟨after.reverse, f, before.reverse, ?_, beq_iff_eq.mp hname, hvalue, ?_⟩
    · rw [← List.reverse_reverse fields, hreverse]
      simp
    · intro g hg
      have hother := hbefore g (List.mem_reverse.mp hg)
      simpa using hother
  · intro h
    obtain ⟨before, f, after, rfl, hname, hvalue, hafter⟩ := h
    refine ⟨f, List.find?_eq_some_iff_append.mpr ⟨beq_iff_eq.mpr hname, ?_⟩, hvalue⟩
    refine ⟨after.reverse, before.reverse, by simp, ?_⟩
    intro g hg
    simpa using hafter g (List.mem_reverse.mp hg)

theorem lastValue?_mem {value : FieldValue} (h : lastValue? name fields = some value) :
    ∃ f ∈ fields, f.name.name = name ∧ f.value = value := by
  obtain ⟨before, f, after, rfl, hname, hvalue, _⟩ := lastValue?_eq_some_iff.mp h
  exact ⟨f, List.mem_append_right before List.mem_cons_self, hname, hvalue⟩

end LastValue

/-! The shapes of the known fields. -/

namespace Schema

variable {schema : Schema} {fields : List Field}

theorem checkShape_ok_iff (field : String) {shape : Shape} {value : FieldValue} :
    checkShape field shape value = .ok () ↔ shape.Fits value := by
  constructor
  · intro h
    cases shape with
    | text =>
        cases value with
        | text literal => exact .text literal
        | list _ _ => cases h
    | list =>
        cases value with
        | text _ => cases h
        | list items span => exact .list items span
    | pairs =>
        cases value with
        | text _ => cases h
        | list items span =>
            simp only [checkShape] at h
            split at h
            · next heven => exact .pairs span heven
            · cases h
  · intro h
    cases h with
    | text _ | list _ _ => rfl
    | pairs span heven => exact if_pos heven

theorem check_ok_iff :
    schema.check fields = .ok () ↔
      ∀ f ∈ fields, ∀ shape, schema.lookup f.name.name = some shape → shape.Fits f.value := by
  induction fields with
  | nil => simp [check]
  | cons f more ih =>
      rw [List.forall_mem_cons, ← ih, check]
      cases hlookup : schema.lookup f.name.name with
      | none => simp
      | some shape =>
          simp only [Option.some.injEq, forall_eq', ← checkShape_ok_iff f.name.name]
          cases hshape : checkShape f.name.name shape f.value with
          | error _ => simp
          | ok _ => simp

end Schema

/-! One pass over the fields. -/

theorem lastValue?_keep (name : String) (f : Field) (kept : List Field) :
    lastValue? name (f.keep kept) =
      if f.name.name = name then some f.value else lastValue? name kept := by
  rw [Field.keep, lastValue?_concat]
  split
  · rfl
  · next hname =>
      apply lastValue?_filter
      intro old hold
      rw [hold]
      exact bne_iff_ne.mpr (Ne.symm hname)

namespace Schema

variable {schema : Schema} {fields : List Field}

theorem gather_error {fault : FieldFault} (h : schema.check fields = .error fault)
    (kept : List Field) : schema.gather kept fields = .error fault := by
  induction fields generalizing kept with
  | nil => cases h
  | cons f more ih =>
      cases hlookup : schema.lookup f.name.name with
      | none =>
          simp only [check, gather, hlookup] at h ⊢
          exact ih h kept
      | some shape =>
          simp only [check, gather, hlookup] at h ⊢
          cases hshape : checkShape f.name.name shape f.value with
          | error _ =>
              simp only [hshape] at h ⊢
              cases h
              rfl
          | ok _ =>
              simp only [hshape] at h ⊢
              exact ih h (f.keep kept)

/-- What is kept gives each known name its last value, be it one that was kept before. -/
theorem gather_ok (h : schema.check fields = .ok ()) (kept : List Field) :
    ∃ result, schema.gather kept fields = .ok result ∧
      ∀ name shape, schema.lookup name = some shape →
        lastValue? name result = (lastValue? name fields).or (lastValue? name kept) := by
  induction fields generalizing kept with
  | nil => exact ⟨kept, rfl, fun _ _ _ => rfl⟩
  | cons f more ih =>
      have hmore : schema.check more = .ok () := by
        rw [check_ok_iff] at h ⊢
        exact (List.forall_mem_cons.mp h).2
      cases hlookup : schema.lookup f.name.name with
      | none =>
          obtain ⟨result, hresult, hvalues⟩ := ih hmore kept
          refine ⟨result, by simp only [gather, hlookup, hresult], ?_⟩
          intro name shape hname
          have hother : f.name.name ≠ name := by
            intro heq
            rw [heq, hname] at hlookup
            cases hlookup
          rw [hvalues name shape hname, lastValue?_cons, if_neg hother, Option.or_none]
      | some shape =>
          have hshape : checkShape f.name.name shape f.value = .ok () :=
            (checkShape_ok_iff _).mpr (check_ok_iff.mp h f List.mem_cons_self shape hlookup)
          obtain ⟨result, hresult, hvalues⟩ := ih hmore (f.keep kept)
          refine ⟨result, by simp only [gather, hlookup, hshape, hresult], ?_⟩
          intro name _ hname
          rw [hvalues name _ hname, lastValue?_cons, lastValue?_keep, Option.or_assoc]
          split <;> rfl

end Schema

/-! The rules of the kinds. -/

/-- Of a list of pairs the last value has pairs. -/
theorem Schema.even_textsOf {schema : Schema} {fields : List Field} {name : String}
    (h : schema.check fields = .ok ()) (hname : schema.lookup name = some .pairs) :
    (textsOf name fields).length % 2 = 0 := by
  rw [textsOf]
  split
  · next items span hlast =>
      obtain ⟨f, hf, rfl, hvalue⟩ := lastValue?_mem hlast
      have hfits := check_ok_iff.mp h f hf .pairs hname
      rw [hvalue] at hfits
      cases hfits with
      | pairs _ heven => rwa [List.length_map]
  · rfl

theorem pairUp_flatMap (pairs : List (String × String)) :
    pairUp (pairs.flatMap fun p => [p.1, p.2]) = pairs := by
  induction pairs with
  | nil => rfl
  | cons p more ih =>
      simp only [List.flatMap_cons, List.cons_append, List.nil_append, pairUp, ih]

/-- A list of even length is that of its pairs one after the other. -/
theorem flatMap_pairUp {texts : List String} (h : texts.length % 2 = 0) :
    (pairUp texts).flatMap (fun p => [p.1, p.2]) = texts := by
  induction texts using pairUp.induct with
  | case1 a b more ih =>
      have hmore : more.length % 2 = 0 := by
        simp only [List.length_cons] at h
        omega
      simp only [pairUp, List.flatMap_cons, List.cons_append, List.nil_append, ih hmore]
  | case2 texts hshort =>
      match texts with
      | [] => rfl
      | [_] => simp at h
      | a :: b :: more => exact absurd rfl (hshort a b more)

theorem NumericType.read_ok_iff {value : String} {numericType : NumericType} :
    NumericType.read value = .ok numericType ↔ value ∈ numericType.spellings := by
  cases numericType <;> grind [NumericType.read, spellings]

theorem TimeFormat.read_ok_iff {value : String} {format : TimeFormat} :
    TimeFormat.read value = .ok format ↔ value ∈ format.spellings := by
  cases format <;> grind [TimeFormat.read, spellings]

theorem VariableSource.read_ok_iff {value : String} {source : VariableSource} :
    VariableSource.read value = .ok source ↔ source.name = value := by
  cases source <;> grind [VariableSource.read, name]

namespace Kind

variable {driver : Driver} {fields other : List Field} {kind : Kind}

/-- A kind looks at the last values of the fields that it knows. -/
theorem ofFields_congr
    (h : ∀ name shape, driver.schema.lookup name = some shape →
      lastValue? name fields = lastValue? name other) :
    ofFields driver fields = ofFields driver other := by
  have htext : ∀ name shape, driver.schema.lookup name = some shape →
      textOf name fields = textOf name other := by
    intro name shape hname
    rw [textOf, textOf, h name shape hname]
  have hitems : ∀ name shape, driver.schema.lookup name = some shape →
      textsOf name fields = textsOf name other := by
    intro name shape hname
    rw [textsOf, textsOf, h name shape hname]
  cases driver with
  | httpStep =>
      simp only [ofFields, stepOf, htext "method" .text rfl, htext "url" .text rfl,
        htext "body" .text rfl, hitems "headers" .pairs rfl, hitems "assertions" .list rfl,
        hitems "variables" .list rfl]
  | httpTest => simp only [ofFields, testOf, hitems "steps" .list rfl]
  | httpAssertion =>
      simp only [ofFields, assertionOf, htext "source" .text rfl, htext "property" .text rfl,
        htext "comparison" .text rfl, htext "target" .text rfl]
  | statusCodeAssertion => simp only [ofFields, statusCodeOf, htext "equals" .text rfl]
  | bodyAssertion => simp only [ofFields, bodyOf, htext "equals" .text rfl]
  | httpVariable =>
      simp only [ofFields, responseVariableOf, htext "source" .text rfl,
        htext "property" .text rfl, htext "variable" .text rfl, htext "numeric_type" .text rfl]
  | systemVariable =>
      simp only [ofFields, systemVariableOf, htext "source" .text rfl,
        htext "variable" .text rfl, htext "format" .text rfl]
  | outletHeader =>
      simp only [ofFields, outletHeaderOf, htext "source" .text rfl, htext "variable" .text rfl]
  | outletJsonField =>
      simp only [ofFields, outletJsonFieldOf, htext "path" .text rfl,
        htext "variable" .text rfl, htext "numeric_type" .text rfl]

theorem gather_eq_build (driver : Driver) (fields : List Field) :
    gather driver fields = build driver fields := by
  rw [gather, build]
  cases hcheck : driver.schema.check fields with
  | error fault => rw [Schema.gather_error hcheck []]
  | ok _ =>
      obtain ⟨kept, hkept, hvalues⟩ := Schema.gather_ok hcheck []
      rw [hkept]
      apply ofFields_congr
      intro name shape hname
      rw [hvalues name shape hname]
      exact Option.or_none

theorem stepOf_ok_iff :
    stepOf fields = .ok kind ↔
      textOf "method" fields ≠ "" ∧ textOf "url" fields ≠ "" ∧
        kind = .step
          { method := textOf "method" fields, url := textOf "url" fields
            body := textOf "body" fields, headers := pairUp (textsOf "headers" fields)
            assertions := (textsOf "assertions" fields).map .unresolved
            captures := (textsOf "variables" fields).map .unresolved } := by
  simp only [stepOf, check_ok_iff, needed_ok_iff, pure_ok_iff]

/-- What a driver makes of fields of the right shapes. -/
theorem ofFields_ok_iff (h : driver.schema.check fields = .ok ()) :
    ofFields driver fields = .ok kind ↔
      driver.Makes (fun name => textOf name fields) (fun name => textsOf name fields) kind := by
  constructor
  · intro hkind
    cases driver with
    | httpStep =>
        obtain ⟨hmethod, hurl, rfl⟩ := stepOf_ok_iff.mp hkind
        exact .httpStep hmethod hurl (flatMap_pairUp (Schema.even_textsOf h rfl))
    | httpTest =>
        cases hkind
        exact .httpTest
    | httpAssertion =>
        obtain ⟨subject, hsource, hproperty, comparison, ⟨hname, hlisted⟩, htarget, rfl⟩ :=
          assertionOf_ok_iff.mp hkind
        exact .httpAssertion hsource hproperty hname hlisted htarget
    | statusCodeAssertion =>
        obtain ⟨hequals, rfl⟩ := statusCodeOf_ok_iff.mp hkind
        exact .statusCodeAssertion hequals
    | bodyAssertion =>
        obtain ⟨hequals, rfl⟩ := bodyOf_ok_iff.mp hkind
        exact .bodyAssertion hequals
    | httpVariable =>
        obtain ⟨_, hvariable, hproperty, numericType, htype, source, hsource, rfl⟩ :=
          responseVariableOf_ok_iff.mp hkind
        exact .httpVariable (VariableSource.read_ok_iff.mp hsource) hvariable hproperty
          (NumericType.read_ok_iff.mp htype)
    | systemVariable =>
        obtain ⟨_, hvariable, hsource, format, hformat, rfl⟩ := systemVariableOf_ok_iff.mp hkind
        exact .systemVariable hsource hvariable (TimeFormat.read_ok_iff.mp hformat)
    | outletHeader =>
        obtain ⟨hsource, hvariable, rfl⟩ := outletHeaderOf_ok_iff.mp hkind
        exact .outletHeader hsource hvariable
    | outletJsonField =>
        obtain ⟨hpath, hvariable, numericType, htype, rfl⟩ := outletJsonFieldOf_ok_iff.mp hkind
        exact .outletJsonField hpath hvariable (NumericType.read_ok_iff.mp htype)
  · intro hmakes
    cases hmakes with
    | httpStep hmethod hurl hheaders =>
        apply stepOf_ok_iff.mpr
        rw [← hheaders, pairUp_flatMap]
        exact ⟨hmethod, hurl, rfl⟩
    | httpTest => rfl
    | httpAssertion hsource hproperty hname hlisted htarget =>
        exact assertionOf_ok_iff.mpr
          ⟨_, hsource, hproperty, _, ⟨hname, hlisted⟩, htarget, rfl⟩
    | statusCodeAssertion hequals => exact statusCodeOf_ok_iff.mpr ⟨hequals, rfl⟩
    | bodyAssertion hequals => exact bodyOf_ok_iff.mpr ⟨hequals, rfl⟩
    | @httpVariable source _ hsource hvariable hproperty htype =>
        have hnamed : textOf "source" fields ≠ "" := by
          rw [← hsource]
          cases source <;> decide
        exact responseVariableOf_ok_iff.mpr ⟨hnamed, hvariable, hproperty, _,
          NumericType.read_ok_iff.mpr htype, _, VariableSource.read_ok_iff.mpr hsource, rfl⟩
    | systemVariable hsource hvariable hformat =>
        have hnamed : textOf "source" fields ≠ "" := by
          rw [hsource]
          decide
        exact systemVariableOf_ok_iff.mpr
          ⟨hnamed, hvariable, hsource, _, TimeFormat.read_ok_iff.mpr hformat, rfl⟩
    | outletHeader hsource hvariable =>
        exact outletHeaderOf_ok_iff.mpr ⟨hsource, hvariable, rfl⟩
    | outletJsonField hpath hvariable htype =>
        exact outletJsonFieldOf_ok_iff.mpr
          ⟨hpath, hvariable, _, NumericType.read_ok_iff.mpr htype, rfl⟩

theorem build_ok_iff_makes :
    build driver fields = .ok kind ↔
      (∀ f ∈ fields, ∀ shape, driver.schema.lookup f.name.name = some shape →
        shape.Fits f.value) ∧
      driver.Makes (fun name => textOf name fields) (fun name => textsOf name fields) kind := by
  rw [build_ok_iff, ← Schema.check_ok_iff]
  exact and_congr_right ofFields_ok_iff

end Kind

namespace Schema.Rearranged

variable {driver : Driver} {fields fields' : List Field}

/-- The fields of a name that is known stay as they are. -/
theorem filter_eq {schema : Schema} (h : schema.Rearranged fields fields') {name : String}
    {shape : Shape} (hname : schema.lookup name = some shape) :
    fields.filter (fun f => f.name.name == name) = fields'.filter fun f => f.name.name == name := by
  induction h with
  | refl _ => rfl
  | swap before after f g hapart =>
      by_cases hf : f.name.name = name
      · have hg : g.name.name ≠ name := fun hg => hapart (hf.trans hg.symm)
        simp [hf, hg]
      · simp [List.filter_cons, hf]
  | add before after f hunknown =>
      have hf : f.name.name ≠ name := by
        intro heq
        rw [heq, hname] at hunknown
        cases hunknown
      simp [hf]
  | trans _ _ ih ih' => exact ih.trans ih'

theorem lastValue?_eq {schema : Schema} (h : schema.Rearranged fields fields') {name : String}
    {shape : Shape} (hname : schema.lookup name = some shape) :
    lastValue? name fields = lastValue? name fields' := by
  have hnamed : ∀ f : Field, f.name.name = name → (f.name.name == name) = true :=
    fun _ => beq_iff_eq.mpr
  rw [← lastValue?_filter hnamed, h.filter_eq hname, lastValue?_filter hnamed]

theorem mem_iff {schema : Schema} (h : schema.Rearranged fields fields') {f : Field}
    {shape : Shape} (hname : schema.lookup f.name.name = some shape) :
    f ∈ fields ↔ f ∈ fields' := by
  have hfilter := congrArg (f ∈ ·) (h.filter_eq hname)
  simpa only [List.mem_filter, beq_self_eq_true, and_true, eq_iff_iff] using hfilter

theorem check_ok_iff {schema : Schema} (h : schema.Rearranged fields fields') :
    schema.check fields = .ok () ↔ schema.check fields' = .ok () := by
  rw [Schema.check_ok_iff, Schema.check_ok_iff]
  constructor
  · intro hfits f hf shape hname
    exact hfits f ((h.mem_iff hname).mpr hf) shape hname
  · intro hfits f hf shape hname
    exact hfits f ((h.mem_iff hname).mp hf) shape hname

/-- Rearranged fields make the same kind. -/
theorem build_ok_iff (h : driver.schema.Rearranged fields fields') {kind : Kind} :
    Kind.build driver fields = .ok kind ↔ Kind.build driver fields' = .ok kind := by
  rw [Kind.build_ok_iff, Kind.build_ok_iff, h.check_ok_iff,
    Kind.ofFields_congr fun _ _ hname => h.lastValue?_eq hname]

end Schema.Rearranged

namespace Resource

variable {driver : Driver} {id : String} {b : Block}

theorem exists_build_iff {kind : Kind} :
    (∃ r, build driver id b = .ok r ∧ r.kind = kind) ↔ Kind.build driver b.fields = .ok kind := by
  simp only [build_ok_iff]
  constructor
  · intro ⟨r, ⟨_, _, hkind⟩, hr⟩
    rwa [hr] at hkind
  · intro hkind
    exact ⟨⟨id, b, kind⟩, ⟨rfl, rfl, hkind⟩, rfl⟩

theorem build_error {e : Failure} (h : build driver id b = .error e) :
    ∃ fault, Kind.build driver b.fields = .error fault ∧ e = .invalid b.reference fault := by
  rw [build] at h
  split at h
  · next fault hfault =>
      cases h
      exact ⟨fault, hfault, rfl⟩
  · cases h

theorem gather_eq_build (driver : Driver) (id : String) (b : Block) :
    gather driver id b = build driver id b := by
  rw [gather, Kind.gather_eq_build]
  cases hkind : Kind.build driver b.fields with
  | error _ => simp only [build, hkind]
  | ok _ => simp only [build, hkind]

end Resource

theorem blocks_are_built_from_last_values (driver : Driver) (id : String) (b : Block) :
    (∀ r, Resource.gather driver id b = .ok r ↔
      (∀ f ∈ b.fields, ∀ shape, driver.schema.lookup f.name.name = some shape →
        shape.Fits f.value) ∧
      r.id = id ∧ r.block = b ∧
      driver.Makes (fun name => textOf name b.fields) (fun name => textsOf name b.fields) r.kind) ∧
    (∀ fields, driver.schema.Rearranged b.fields fields → ∀ kind,
      (∃ r, Resource.gather driver id { b with fields } = .ok r ∧ r.kind = kind) ↔
        ∃ r, Resource.gather driver id b = .ok r ∧ r.kind = kind) ∧
    (∀ e, Resource.gather driver id b = .error e → ∃ fault, e = .invalid b.reference fault) ∧
    Resource.gather driver id b = Resource.build driver id b := by
  have hgather : ∀ fields, Resource.gather driver id { b with fields } =
      Resource.build driver id { b with fields } := fun _ => Resource.gather_eq_build driver id _
  have hblock : Resource.gather driver id b = Resource.build driver id b := hgather b.fields
  refine ⟨?_, ?_, ?_, hblock⟩
  · intro r
    rw [hblock, Resource.build_ok_iff, Kind.build_ok_iff_makes]
    constructor
    · intro ⟨hid, hsource, hfits, hmakes⟩
      exact ⟨hfits, hid, hsource, hmakes⟩
    · intro ⟨hfits, hid, hsource, hmakes⟩
      exact ⟨hid, hsource, hfits, hmakes⟩
  · intro fields h kind
    rw [hgather, hblock, Resource.exists_build_iff, Resource.exists_build_iff]
    exact h.build_ok_iff.symm
  · intro e h
    rw [hblock] at h
    obtain ⟨fault, _, he⟩ := Resource.build_error h
    exact ⟨fault, he⟩

namespace Sample

def url : Field := .bare "url" "http://a/"

def method : Field := .bare "method" "GET"

/-- A step whose method and headers are given twice, with a field that steps do not have. -/
def post : Block :=
  .bare "resource" "http_step" "post"
    [ .bare "method" "POST", .bareList "headers" ["A", "1"], .bareList "equals" ["200"],
      .bareList "headers" ["B", "2", "C", "3"], url, method ]

/-- The same with the last two fields the other way round. -/
def postSwapped : List Field :=
  [ .bare "method" "POST", .bareList "headers" ["A", "1"], .bareList "equals" ["200"],
    .bareList "headers" ["B", "2", "C", "3"], method, url ]

def posted : Step where
  method := "GET"
  url := "http://a/"
  body := ""
  headers := [("B", "2"), ("C", "3")]
  assertions := []
  captures := []

/-- The headers of the second list are pairs, but those of the first are not. -/
def unpaired : Block :=
  .bare "resource" "http_step" "post"
    [.bareList "headers" ["A"], .bareList "headers" [], url, method]

end Sample

theorem sample_last_values :
    Resource.gather .httpStep "0" Sample.post = .ok ⟨"0", Sample.post, .step Sample.posted⟩ ∧
    (∃ r, Resource.gather .httpStep "0" { Sample.post with fields := Sample.postSwapped } = .ok r ∧
      r.kind = .step Sample.posted) ∧
    Resource.gather .httpStep "0" Sample.unpaired =
      .error (.invalid Sample.unpaired.reference (.unpaired "headers")) ∧
    ∃ fault, Failure.invalid Sample.unpaired.reference (.unpaired "headers") =
      .invalid Sample.unpaired.reference fault := by
  obtain ⟨hholds, hrearranged, _, _⟩ :=
    blocks_are_built_from_last_values .httpStep "0" Sample.post
  have hfits : ∀ f ∈ Sample.post.fields, ∀ shape,
      Driver.httpStep.schema.lookup f.name.name = some shape → shape.Fits f.value := by
    apply Schema.check_ok_iff.mp
    decide +kernel
  have hbuilt : Resource.gather .httpStep "0" Sample.post =
      .ok ⟨"0", Sample.post, .step Sample.posted⟩ := by
    refine (hholds ⟨"0", Sample.post, .step Sample.posted⟩).mpr ⟨hfits, rfl, rfl, ?_⟩
    exact .httpStep (by decide) (by decide) (by decide)
  have hswap : Driver.httpStep.schema.Rearranged Sample.post.fields Sample.postSwapped :=
    .swap (Sample.post.fields.take 4) [] Sample.url Sample.method (by decide)
  have hunpaired : Resource.gather .httpStep "0" Sample.unpaired =
      .error (.invalid Sample.unpaired.reference (.unpaired "headers")) := by decide +kernel
  obtain ⟨_, _, hreference, _⟩ :=
    blocks_are_built_from_last_values .httpStep "0" Sample.unpaired
  refine ⟨hbuilt, ?_, hunpaired, hreference _ hunpaired⟩
  exact (hrearranged Sample.postSwapped hswap (.step Sample.posted)).mpr ⟨_, hbuilt, rfl⟩

end HttpSuite
