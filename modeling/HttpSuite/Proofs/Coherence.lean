import HttpSuite.Json.Numeric
import HttpSuite.Proofs.Acceptance
import HttpSuite.Proofs.Leaves
import HttpSuite.Proofs.Verdicts

/-!
Comparisons that belong together. Of two comparisons of which one denies the other at most one
holds, and one of them does unless what is compared is of another kind than both are about, or the
target is of no use to both. An order with equality is the union of the strict order and of numeric
equality.
-/

namespace HttpSuite

open HttpSuite.Text

namespace Comparison

/-- The second denies the first. -/
inductive Opposite : Comparison → Comparison → Prop where
  | equality : Opposite equals doesNotEqual
  | containment : Opposite contains doesNotContain
  | emptiness : Opposite isEmpty isNotEmpty
  | below : Opposite lessThan greaterThanOrEqual
  | atMost : Opposite lessThanOrEqual greaterThan

/-- Whether a comparison is by the order of numbers. -/
def isOrdering : Comparison → Bool
  | lessThan | lessThanOrEqual | greaterThan | greaterThanOrEqual => true
  | _ => false

/-- Whether a comparison looks for the target inside a text. -/
def isContainment : Comparison → Bool
  | contains | doesNotContain => true
  | _ => false

/-- Whether a comparison is about values of such a kind. -/
def suits : Comparison → Json → Bool
  | equals, value | doesNotEqual, value =>
    match value with
    | .bool _ | .number _ | .text _ => true
    | _ => false
  | contains, value | doesNotContain, value =>
    match value with
    | .text _ => true
    | _ => false
  | isEmpty, value | isNotEmpty, value =>
    match value with
    | .null | .text _ => true
    | _ => false
  | lessThan, value | lessThanOrEqual, value | greaterThan, value | greaterThanOrEqual, value =>
    match value with
    | .number _ => true
    | _ => false
  | _, _ => false

variable {c d : Comparison}

theorem Opposite.isOrdering_eq (h : Opposite c d) : d.isOrdering = c.isOrdering := by
  cases h <;> rfl

/-! ### Texts -/

theorem Opposite.checkText_not_both (h : Opposite c d) {value target : String}
    (hc : c.checkText value target = .ok ()) : d.checkText value target ≠ .ok () := by
  cases h with
  | equality => exact require_not_both (value == target) hc
  | containment =>
      simp only [checkText] at hc ⊢
      -- Both refuse an empty target.
      split at hc
      · cases hc
      · next htarget =>
          rw [if_neg htarget]
          exact require_not_both _ hc
  | emptiness => exact require_not_both value.isEmpty hc
  | below | atMost => cases hc

theorem Opposite.checkText_one (h : Opposite c d) {value target : String}
    (hordering : c.isOrdering = false) (htarget : c.isContainment = true → target ≠ "") :
    c.checkText value target = .ok () ∨ d.checkText value target = .ok () := by
  cases h with
  | equality => exact require_one (value == target)
  | containment =>
      have hempty : ¬target.isEmpty = true := mt String.isEmpty_iff.mp (htarget rfl)
      simp only [checkText, if_neg hempty]
      exact require_one _
  | emptiness => exact require_one value.isEmpty
  | below | atMost => cases hordering

/-! ### Numbers -/

theorem checkNumber_ok_iff {x y : Binary64} :
    c.checkNumber x y = .ok () ↔
      ∃ a b, x.position? = some a ∧ y.position? = some b ∧ c.relation a b = true := by
  rw [checkNumber, require_ok_iff, Binary64.compare_eq_true_iff]

theorem Opposite.relation_eq_not (h : Opposite c d) (hordering : c.isOrdering = true) (a b : Int) :
    d.relation a b = !c.relation a b := by
  cases h with
  | equality | containment | emptiness => cases hordering
  | below =>
      simp only [relation]
      by_cases hab : a < b
      · simp [hab]
      · simp [hab, Int.not_lt.mp hab]
  | atMost =>
      simp only [relation]
      by_cases hab : a ≤ b
      · simp [hab]
      · simp [hab, Int.not_le.mp hab]

theorem Opposite.checkNumber_not_both (h : Opposite c d) (hordering : c.isOrdering = true)
    {x y : Binary64} (hc : c.checkNumber x y = .ok ()) : d.checkNumber x y ≠ .ok () := by
  intro hd
  obtain ⟨a, b, ha, hb, hab⟩ := checkNumber_ok_iff.mp hc
  obtain ⟨a', b', ha', hb', hab'⟩ := checkNumber_ok_iff.mp hd
  rw [ha] at ha'
  rw [hb] at hb'
  cases ha'
  cases hb'
  rw [h.relation_eq_not hordering, hab] at hab'
  cases hab'

/-- One of two numbers is below the other or not. -/
theorem Opposite.checkNumber_one (h : Opposite c d) (hordering : c.isOrdering = true)
    {x y : Binary64} (hx : x ≠ .nan) (hy : y ≠ .nan) :
    c.checkNumber x y = .ok () ∨ d.checkNumber x y = .ok () := by
  obtain ⟨a, ha⟩ := Binary64.exists_position hx
  obtain ⟨b, hb⟩ := Binary64.exists_position hy
  cases hab : c.relation a b with
  | true => exact .inl (checkNumber_ok_iff.mpr ⟨a, b, ha, hb, hab⟩)
  | false =>
      refine .inr (checkNumber_ok_iff.mpr ⟨a, b, ha, hb, ?_⟩)
      rw [h.relation_eq_not hordering, hab]
      rfl

theorem checkNumber_le_of_lt {x y : Binary64} (h : lessThan.checkNumber x y = .ok ()) :
    lessThanOrEqual.checkNumber x y = .ok () := by
  obtain ⟨a, b, ha, hb, hab⟩ := checkNumber_ok_iff.mp h
  refine checkNumber_ok_iff.mpr ⟨a, b, ha, hb, ?_⟩
  simp only [relation, decide_eq_true_eq] at hab ⊢
  exact Int.le_of_lt hab

theorem checkNumber_equals_iff {x y : Binary64} :
    equalsNumber.checkNumber x y = .ok () ↔
      lessThanOrEqual.checkNumber x y = .ok () ∧ greaterThanOrEqual.checkNumber x y = .ok () := by
  simp only [checkNumber, require_ok_iff, Binary64.compare]
  cases x.position? with
  | none => simp
  | some a =>
      cases y.position? with
      | none => simp
      | some b =>
          simp only [relation, beq_iff_eq, decide_eq_true_eq]
          exact Int.le_antisymm_iff

/-! ### Status codes -/

/-- An ordering compares a status code with a whole number. -/
theorem checkStatus_ok_iff (hordering : c.isOrdering = true) {status : UInt16} {target : String} :
    c.checkStatus status target = .ok () ↔
      ∃ bound, readWhole? leastWord greatestWord (trim target.toList) = some bound ∧
        c.checkNumber (.ofNat status.toNat) (.ofInt bound) = .ok () := by
  cases c with
  | lessThan | lessThanOrEqual | greaterThan | greaterThanOrEqual =>
      simp only [checkStatus]
      cases readWhole? leastWord greatestWord (trim target.toList) <;> simp
  | _ => cases hordering

theorem Opposite.checkStatus_not_both (h : Opposite c d) {status : UInt16} {target : String}
    (hc : c.checkStatus status target = .ok ()) : d.checkStatus status target ≠ .ok () := by
  cases hordering : c.isOrdering with
  | true =>
      intro hd
      obtain ⟨bound, hbound, hc⟩ := (checkStatus_ok_iff hordering).mp hc
      obtain ⟨bound', hbound', hd⟩ := (checkStatus_ok_iff (h.isOrdering_eq.trans hordering)).mp hd
      rw [hbound] at hbound'
      cases hbound'
      exact h.checkNumber_not_both hordering hc hd
  | false =>
      cases h with
      | equality => exact require_not_both (toString status.toNat == target) hc
      | containment | emptiness => cases hc
      | below | atMost => cases hordering

theorem Opposite.checkStatus_one (h : Opposite c d) {status : UInt16} {target : String}
    (hc : c ∈ Subject.statusCode.comparisons)
    (htarget : c.isOrdering = true →
      ∃ bound, readWhole? leastWord greatestWord (trim target.toList) = some bound) :
    c.checkStatus status target = .ok () ∨ d.checkStatus status target = .ok () := by
  cases hordering : c.isOrdering with
  | true =>
      obtain ⟨bound, hbound⟩ := htarget hordering
      rw [checkStatus_ok_iff hordering, checkStatus_ok_iff (h.isOrdering_eq.trans hordering)]
      rcases h.checkNumber_one hordering (x := .ofNat status.toNat) (y := .ofInt bound)
        Binary64.ofNat_ne_nan Binary64.ofInt_ne_nan with hone | hone
      · exact .inl ⟨bound, hbound, hone⟩
      · exact .inr ⟨bound, hbound, hone⟩
  | false =>
      cases h with
      | equality => exact require_one (toString status.toNat == target)
      | containment | emptiness => simp [Subject.comparisons] at hc
      | below | atMost => cases hordering

theorem checkStatus_le_of_lt {status : UInt16} {target : String}
    (h : lessThan.checkStatus status target = .ok ()) :
    lessThanOrEqual.checkStatus status target = .ok () := by
  obtain ⟨bound, hbound, hlt⟩ := (checkStatus_ok_iff rfl).mp h
  exact (checkStatus_ok_iff rfl).mpr ⟨bound, hbound, checkNumber_le_of_lt hlt⟩

/-! ### JSON values -/

/-- Orderings and numeric equality compare a JSON number with another number. -/
theorem checkJson_ok_iff (hnumber : c.isOrdering = true ∨ c = equalsNumber) {value : Json}
    {target : String} :
    c.checkJson value target = .ok () ↔
      ∃ x bound, value.toDouble? = some x ∧
        Binary64.read? (trim target.toList) = some bound ∧ c.checkNumber x bound = .ok () := by
  cases c with
  | lessThan | lessThanOrEqual | greaterThan | greaterThanOrEqual | equalsNumber =>
      simp only [checkJson]
      cases value.toDouble? with
      | none => simp
      | some x => cases Binary64.read? (trim target.toList) <;> simp
  | _ => simp [isOrdering] at hnumber

theorem Opposite.checkJson_not_both (h : Opposite c d) {value : Json} {target : String}
    (hc : c.checkJson value target = .ok ()) : d.checkJson value target ≠ .ok () := by
  cases hordering : c.isOrdering with
  | true =>
      intro hd
      obtain ⟨x, bound, hx, hbound, hc⟩ := (checkJson_ok_iff (.inl hordering)).mp hc
      obtain ⟨x', bound', hx', hbound', hd⟩ :=
        (checkJson_ok_iff (.inl (h.isOrdering_eq.trans hordering))).mp hd
      rw [hx] at hx'
      rw [hbound] at hbound'
      cases hx'
      cases hbound'
      exact h.checkNumber_not_both hordering hc hd
  | false =>
      cases h with
      | equality =>
          simp only [checkJson] at hc ⊢
          split at hc
          · cases hc
          · exact Opposite.equality.checkText_not_both hc
      | containment =>
          simp only [checkJson] at hc ⊢
          cases value with
          | text s => exact require_not_both (occursIn target.toList s.toList) hc
          | _ => cases hc
      | emptiness =>
          simp only [checkJson] at hc ⊢
          split at hc
          · simp
          · exact Opposite.emptiness.checkText_not_both hc
          · cases hc
      | below | atMost => cases hordering

theorem exists_number (hordering : c.isOrdering = true) {value : Json} (hvalue : value.Numeric)
    (hsuits : c.suits value = true) : ∃ x, value.toDouble? = some x ∧ x ≠ .nan := by
  cases value with
  | number n =>
      cases hvalue with
      | number hn => exact ⟨n.toDouble, rfl, hn⟩
  | _ => cases c <;> cases hordering <;> cases hsuits

theorem Opposite.checkJson_one (h : Opposite c d) {value : Json} {target : String}
    (hvalue : value.Numeric) (hsuits : c.suits value = true)
    (htarget : c.isOrdering = true →
      ∃ bound, Binary64.read? (trim target.toList) = some bound ∧ bound ≠ .nan) :
    c.checkJson value target = .ok () ∨ d.checkJson value target = .ok () := by
  cases hordering : c.isOrdering with
  | true =>
      obtain ⟨bound, hbound, hnan⟩ := htarget hordering
      obtain ⟨x, hx, hxnan⟩ := exists_number hordering hvalue hsuits
      rw [checkJson_ok_iff (.inl hordering),
        checkJson_ok_iff (.inl (h.isOrdering_eq.trans hordering))]
      rcases h.checkNumber_one hordering hxnan hnan with hone | hone
      · exact .inl ⟨x, bound, hx, hbound, hone⟩
      · exact .inr ⟨x, bound, hx, hbound, hone⟩
  | false =>
      cases h with
      | equality =>
          simp only [checkJson]
          cases value with
          | bool _ | number _ | text _ =>
              exact Opposite.equality.checkText_one rfl (by simp [isContainment])
          | _ => cases hsuits
      | containment =>
          simp only [checkJson]
          cases value with
          | text s => exact require_one (occursIn target.toList s.toList)
          | _ => cases hsuits
      | emptiness =>
          simp only [checkJson]
          -- Null counts as empty.
          cases value with
          | null => exact .inl rfl
          | text s => exact Opposite.emptiness.checkText_one rfl (by simp [isContainment])
          | _ => cases hsuits
      | below | atMost => cases hordering

theorem checkJson_le_of_lt {value : Json} {target : String}
    (h : lessThan.checkJson value target = .ok ()) :
    lessThanOrEqual.checkJson value target = .ok () := by
  obtain ⟨x, bound, hx, hbound, hlt⟩ := (checkJson_ok_iff (.inl rfl)).mp h
  exact (checkJson_ok_iff (.inl rfl)).mpr ⟨x, bound, hx, hbound, checkNumber_le_of_lt hlt⟩

theorem checkJson_equalsNumber_iff {value : Json} {target : String} :
    equalsNumber.checkJson value target = .ok () ↔
      lessThanOrEqual.checkJson value target = .ok () ∧
        greaterThanOrEqual.checkJson value target = .ok () := by
  rw [checkJson_ok_iff (.inr rfl), checkJson_ok_iff (.inl rfl), checkJson_ok_iff (.inl rfl)]
  constructor
  · rintro ⟨x, bound, hx, hbound, hequal⟩
    obtain ⟨hle, hge⟩ := checkNumber_equals_iff.mp hequal
    exact ⟨⟨x, bound, hx, hbound, hle⟩, x, bound, hx, hbound, hge⟩
  · rintro ⟨⟨x, bound, hx, hbound, hle⟩, x', bound', hx', hbound', hge⟩
    rw [hx] at hx'
    rw [hbound] at hbound'
    cases hx'
    cases hbound'
    exact ⟨x, bound, hx, hbound, checkNumber_equals_iff.mpr ⟨hle, hge⟩⟩

end Comparison

theorem Json.property_numeric {body : List UInt8} {path : String} {value : Json}
    (h : property body path = .ok value) : value.Numeric := by
  rw [property] at h
  split at h
  · cases h
  · next hread =>
      split at h
      · cases h
      · next hfollow =>
          cases h
          exact numeric_follow (read_numeric hread) hfollow

namespace Subject

variable {c d : Comparison} {property target : String} {response : Response}

/-- What a subject is in a response is of a kind that a comparison is about, and the target is of
use to the comparison. -/
def Compares (subject : Subject) (c : Comparison) (property target : String)
    (response : Response) : Prop :=
  match subject with
  | .statusCode =>
    c.isOrdering = true →
      ∃ bound, readWhole? leastWord greatestWord (trim target.toList) = some bound
  | .body | .header => c.isContainment = true → target ≠ ""
  | .jsonBody =>
    (∃ value, Json.property response.body property = .ok value ∧ c.suits value = true) ∧
      (c.isOrdering = true →
        ∃ bound, Binary64.read? (trim target.toList) = some bound ∧ bound ≠ .nan)

theorem check_jsonBody_ok_iff :
    jsonBody.check property c target response = .ok () ↔
      ∃ value, Json.property response.body property = .ok value ∧
        c.checkJson value target = .ok () := by
  simp only [check]
  cases Json.property response.body property <;> simp

theorem check_not_both (subject : Subject) (h : c.Opposite d)
    (hc : subject.check property c target response = .ok ()) :
    subject.check property d target response ≠ .ok () := by
  cases subject with
  | statusCode => exact h.checkStatus_not_both hc
  | body | header => exact h.checkText_not_both hc
  | jsonBody =>
      intro hd
      obtain ⟨value, hvalue, hc⟩ := check_jsonBody_ok_iff.mp hc
      obtain ⟨value', hvalue', hd⟩ := check_jsonBody_ok_iff.mp hd
      rw [hvalue] at hvalue'
      cases hvalue'
      exact h.checkJson_not_both hc hd

theorem check_one (subject : Subject) (h : c.Opposite d) (hc : c ∈ subject.comparisons)
    (hcompares : subject.Compares c property target response) :
    subject.check property c target response = .ok () ∨
      subject.check property d target response = .ok () := by
  cases subject with
  | statusCode => exact h.checkStatus_one hc hcompares
  | body | header =>
      -- No ordering of texts is accepted.
      apply h.checkText_one _ hcompares
      cases h <;> simp [comparisons] at hc <;> rfl
  | jsonBody =>
      obtain ⟨⟨value, hvalue, hsuits⟩, htarget⟩ := hcompares
      simp only [check, hvalue]
      exact h.checkJson_one (Json.property_numeric hvalue) hsuits htarget

theorem check_le_of_lt (subject : Subject)
    (h : subject.check property .lessThan target response = .ok ()) :
    subject.check property .lessThanOrEqual target response = .ok () := by
  cases subject with
  | statusCode => exact Comparison.checkStatus_le_of_lt h
  | body | header => cases h
  | jsonBody =>
      obtain ⟨value, hvalue, hlt⟩ := check_jsonBody_ok_iff.mp h
      exact check_jsonBody_ok_iff.mpr ⟨value, hvalue, Comparison.checkJson_le_of_lt hlt⟩

theorem check_equalsNumber_iff :
    jsonBody.check property .equalsNumber target response = .ok () ↔
      jsonBody.check property .lessThanOrEqual target response = .ok () ∧
        jsonBody.check property .greaterThanOrEqual target response = .ok () := by
  simp only [check]
  cases Json.property response.body property with
  | error fault => simp
  | ok value => exact Comparison.checkJson_equalsNumber_iff

end Subject

/-- A resource is an accepted assertion. -/
def Resource.Asserts (r : Resource) (subject : Subject) (property : String) (c : Comparison)
    (target : String) : Prop :=
  (∃ id b, ofBlock id b = .ok r) ∧ r.kind = .assertion (.general subject property c target)

theorem Resource.Asserts.mem_comparisons {r : Resource} {subject : Subject} {property : String}
    {c : Comparison} {target : String} (h : r.Asserts subject property c target) :
    c ∈ subject.comparisons := by
  obtain ⟨⟨id, b, hr⟩, hkind⟩ := h
  obtain ⟨_, _, driver, _, hbuild⟩ := ofBlock_ok hr
  rw [hkind] at hbuild
  have hgeneral := Kind.ofFields_general (Kind.build_ok hbuild)
  obtain ⟨subject', _, _, comparison, ⟨_, hmem⟩, _, hsame⟩ := Kind.assertionOf_ok_iff.mp hgeneral
  cases hsame
  exact hmem

namespace Family

variable {transport : Transport} {clock : Clock} {family : Family} {i : Nat} {r : Resource}
  {subject : Subject} {property target t p : String} {c : Comparison} {response : Response}

/-- An assertion holds if it does of the values of its templates. -/
theorem exec_general_ok_iff (h : r.Asserts subject property c target) :
    (family.exec transport clock i r).1 = .ok () ↔
      ∃ t p response, (family.scope i).evaluate target = .ok t ∧
        (family.scope i).evaluate property = .ok p ∧
        (family.context i).response = some response ∧ subject.check p c t response = .ok () := by
  rw [family.exec_assertion transport clock i h.2, Assertion.check_general_ok_iff]

theorem exec_general_ok_iff_check (h : r.Asserts subject property c target)
    (ht : (family.scope i).evaluate target = .ok t)
    (hp : (family.scope i).evaluate property = .ok p)
    (hresponse : (family.context i).response = some response) :
    (family.exec transport clock i r).1 = .ok () ↔ subject.check p c t response = .ok () := by
  rw [exec_general_ok_iff h, ht, hp, hresponse]
  constructor
  · rintro ⟨_, _, _, ⟨⟩, ⟨⟩, ⟨⟩, hcheck⟩
    exact hcheck
  · intro hcheck
    exact ⟨t, p, response, rfl, rfl, rfl, hcheck⟩

end Family

/-- The assertions differ in the comparison alone. No number of a JSON body is without a place in
the order, so orderings decide there as well. -/
theorem comparisons_are_coherent (transport : Transport) (clock : Clock) (family : Family)
    (i : Nat) (subject : Subject) (property target : String) :
    let passes (r : Resource) := (family.exec transport clock i r).1 = .ok ()
    (∀ c d, Comparison.Opposite c d → ∀ r s : Resource, r.Asserts subject property c target →
      s.Asserts subject property d target →
      ¬(passes r ∧ passes s) ∧
      ∀ t p response, (family.scope i).evaluate target = .ok t →
        (family.scope i).evaluate property = .ok p →
        (family.context i).response = some response →
        subject.Compares c p t response → (passes r ↔ ¬passes s)) ∧
    (∀ r s : Resource, r.Asserts subject property .lessThan target →
      s.Asserts subject property .lessThanOrEqual target → passes r → passes s) ∧
    ∀ r s u : Resource, r.Asserts .jsonBody property .equalsNumber target →
      s.Asserts .jsonBody property .lessThanOrEqual target →
      u.Asserts .jsonBody property .greaterThanOrEqual target →
      (passes r ↔ passes s ∧ passes u) := by
  refine ⟨?_, ?_, ?_⟩
  · intro c d hopposite r s hr hs
    have hboth : ¬((family.exec transport clock i r).1 = .ok () ∧
        (family.exec transport clock i s).1 = .ok ()) := by
      rintro ⟨hc, hd⟩
      obtain ⟨t, p, response, ht, hp, hresponse, hc⟩ := (Family.exec_general_ok_iff hr).mp hc
      have hd := (Family.exec_general_ok_iff_check hs ht hp hresponse).mp hd
      exact subject.check_not_both hopposite hc hd
    refine ⟨hboth, ?_⟩
    intro t p response ht hp hresponse hcompares
    refine ⟨fun hc hd => hboth ⟨hc, hd⟩, fun hd => ?_⟩
    apply (Family.exec_general_ok_iff_check hr ht hp hresponse).mpr
    rcases subject.check_one hopposite hr.mem_comparisons hcompares with hone | hone
    · exact hone
    · exact absurd ((Family.exec_general_ok_iff_check hs ht hp hresponse).mpr hone) hd
  · intro r s hr hs hlt
    obtain ⟨t, p, response, ht, hp, hresponse, hlt⟩ := (Family.exec_general_ok_iff hr).mp hlt
    exact (Family.exec_general_ok_iff_check hs ht hp hresponse).mpr (subject.check_le_of_lt hlt)
  · intro r s u hr hs hu
    constructor
    · intro hequal
      obtain ⟨t, p, response, ht, hp, hresponse, hequal⟩ :=
        (Family.exec_general_ok_iff hr).mp hequal
      obtain ⟨hle, hge⟩ := Subject.check_equalsNumber_iff.mp hequal
      exact ⟨(Family.exec_general_ok_iff_check hs ht hp hresponse).mpr hle,
        (Family.exec_general_ok_iff_check hu ht hp hresponse).mpr hge⟩
    · rintro ⟨hle, hge⟩
      obtain ⟨t, p, response, ht, hp, hresponse, hle⟩ := (Family.exec_general_ok_iff hs).mp hle
      have hge := (Family.exec_general_ok_iff_check hu ht hp hresponse).mp hge
      apply (Family.exec_general_ok_iff_check hr ht hp hresponse).mpr
      exact Subject.check_equalsNumber_iff.mpr ⟨hle, hge⟩

/-- A status code below a bound between blanks, and a JSON number that equals its bound. -/
theorem sample_comparisons_are_coherent :
    let target := "$\x7bvar.bound\x7d"
    let assertion (subject : Subject) (c : Comparison) : Resource :=
      { id := "1"
        block := .ofTexts "http_assertion" "a" [("source", subject.name), ("property", "n"),
          ("comparison", c.name), ("target", target)]
        kind := .assertion (.general subject "n" c target) }
    let transport : Transport := fun _ _ => .ok ⟨200, [], []⟩
    let clock : Clock := fun n => ⟨n, 0⟩
    let response : Response := ⟨201, [], encode "\x7b\"n\": 3e2\x7d"⟩
    let family := Family.alone .empty ⟨⟨[("bound", " 300 ")]⟩, some response⟩ .initial
    let passes (r : Resource) := (family.exec transport clock 0 r).1 = .ok ()
    Comparison.Opposite .lessThan .greaterThanOrEqual ∧
      (∀ c ∈ [Comparison.lessThan, .lessThanOrEqual, .greaterThanOrEqual],
        (assertion .statusCode c).Asserts .statusCode "n" c target) ∧
      (∀ c ∈ [Comparison.equalsNumber, .lessThanOrEqual, .greaterThanOrEqual],
        (assertion .jsonBody c).Asserts .jsonBody "n" c target) ∧
      (family.scope 0).evaluate target = .ok " 300 " ∧ (family.scope 0).evaluate "n" = .ok "n" ∧
      (family.context 0).response = some response ∧
      Subject.statusCode.Compares .lessThan "n" " 300 " response ∧
      passes (assertion .statusCode .lessThan) ∧
      ¬passes (assertion .statusCode .greaterThanOrEqual) ∧
      passes (assertion .statusCode .lessThanOrEqual) ∧
      passes (assertion .jsonBody .equalsNumber) ∧
      passes (assertion .jsonBody .lessThanOrEqual) ∧
      passes (assertion .jsonBody .greaterThanOrEqual) := by
  intro target assertion transport clock response family passes
  have hstatus : ∀ c ∈ [Comparison.lessThan, .lessThanOrEqual, .greaterThanOrEqual],
      (assertion .statusCode c).Asserts .statusCode "n" c target := by
    have hblock : ∀ c ∈ [Comparison.lessThan, .lessThanOrEqual, .greaterThanOrEqual],
        Resource.ofBlock "1" (assertion .statusCode c).block = .ok (assertion .statusCode c) := by
      decide
    exact fun c hc => ⟨⟨"1", _, hblock c hc⟩, rfl⟩
  have hjson : ∀ c ∈ [Comparison.equalsNumber, .lessThanOrEqual, .greaterThanOrEqual],
      (assertion .jsonBody c).Asserts .jsonBody "n" c target := by
    have hblock : ∀ c ∈ [Comparison.equalsNumber, .lessThanOrEqual, .greaterThanOrEqual],
        Resource.ofBlock "1" (assertion .jsonBody c).block = .ok (assertion .jsonBody c) := by
      decide
    exact fun c hc => ⟨⟨"1", _, hblock c hc⟩, rfl⟩
  have ht : (family.scope 0).evaluate target = .ok " 300 " := by decide +kernel
  have hp : (family.scope 0).evaluate "n" = .ok "n" := by decide +kernel
  have hcompares : Subject.statusCode.Compares .lessThan "n" " 300 " response :=
    fun _ => ⟨300, by decide⟩
  have hlt : (family.exec transport clock 0 (assertion .statusCode .lessThan)).1 = .ok () := by
    decide +kernel
  have hequal : (family.exec transport clock 0 (assertion .jsonBody .equalsNumber)).1 = .ok () := by
    decide +kernel
  obtain ⟨hopposite, hweaker, _⟩ :=
    comparisons_are_coherent transport clock family 0 .statusCode "n" target
  obtain ⟨_, _, hnumber⟩ := comparisons_are_coherent transport clock family 0 .jsonBody "n" target
  obtain ⟨_, hone⟩ := hopposite _ _ .below _ _ (hstatus .lessThan (by simp))
    (hstatus .greaterThanOrEqual (by simp))
  obtain ⟨hle, hge⟩ := (hnumber _ _ _ (hjson .equalsNumber (by simp))
    (hjson .lessThanOrEqual (by simp)) (hjson .greaterThanOrEqual (by simp))).mp hequal
  exact ⟨.below, hstatus, hjson, ht, hp, rfl, hcompares, hlt,
    (hone _ _ _ ht hp rfl hcompares).mp hlt,
    hweaker _ _ (hstatus .lessThan (by simp)) (hstatus .lessThanOrEqual (by simp)) hlt,
    hequal, hle, hge⟩

end HttpSuite
