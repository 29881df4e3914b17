import HttpSuite.Proofs.Agreement
import HttpSuite.Proofs.Coherence

/-!
Assertions without a target. Most comparisons that read a target are refused without one. Those
for keys and values are accepted, and then they look for the empty text; the others that are
accepted do not read the target, so they hold or fail whatever it is.
-/

namespace HttpSuite

open HttpSuite.Text

theorem Json.member?_isSome_iff {key : String} {members : List (String × Json)} :
    (member? key members).isSome = true ↔ ∃ value, (key, value) ∈ members := by
  induction members with
  | nil => simp [member?]
  | cons m rest ih =>
      obtain ⟨k, v⟩ := m
      rw [member?]
      by_cases hk : k = key
      · subst hk
        rw [if_pos rfl]
        exact iff_of_true rfl ⟨v, List.mem_cons_self⟩
      · rw [if_neg hk, ih]
        simp [Ne.symm hk]

namespace Comparison

variable {c : Comparison} {target : String}

/-- A comparison finds the target in a value: as a key, or as a text of a list. -/
inductive Finds (target : String) : Comparison → Json → Prop
  | key {members : List (String × Json)} {value : Json} (h : (target, value) ∈ members) :
      Finds target hasKey (.object members)
  | value {items : List Json} (h : .text target ∈ items) : Finds target hasValue (.list items)

/-- Comparisons that look for the target hold of the values in which they find it. -/
theorem checkJson_finds_iff (hc : c ∈ [hasKey, hasValue]) {value : Json} :
    c.checkJson value target = .ok () ↔ c.Finds target value := by
  simp only [List.mem_cons, List.not_mem_nil, or_false] at hc
  rcases hc with rfl | rfl
  · cases value with
    | object members =>
        simp only [checkJson, require_ok_iff, Json.member?_isSome_iff]
        constructor
        · rintro ⟨value, h⟩
          exact .key h
        · intro hfinds
          cases hfinds with
          | key h => exact ⟨_, h⟩
    | _ =>
        constructor
        · intro hholds
          cases hholds
        · intro hfinds
          cases hfinds
  · cases value with
    | list items =>
        simp only [checkJson, require_ok_iff, List.any_eq_true]
        constructor
        · rintro ⟨item, hitem, htext⟩
          cases item with
          | text s =>
              cases beq_iff_eq.mp htext
              exact .value hitem
          | _ => cases htext
        · intro hfinds
          cases hfinds with
          | value h => exact ⟨_, h, beq_self_eq_true target⟩
    | _ =>
        constructor
        · intro hholds
          cases hholds
        · intro hfinds
          cases hfinds

/-- Comparisons that look at the value alone. -/
theorem check_ignores_target (hc : c ∈ [isEmpty, isNotEmpty, isNull, isANumber])
    (subject : Subject) (property : String) (response : Response) (target target' : String) :
    subject.check property c target response = subject.check property c target' response := by
  simp only [List.mem_cons, List.not_mem_nil, or_false] at hc
  rcases hc with rfl | rfl | rfl | rfl <;> cases subject <;> rfl

theorem needsTarget_eq_false_iff :
    c.needsTarget = false ↔
      c ∈ [isEmpty, isNotEmpty, isNull, isANumber] ∨ c ∈ [hasKey, hasValue] := by
  cases c <;> simp [needsTarget]

/-- Keys and values are looked for in JSON bodies. -/
theorem subject_eq_jsonBody (hc : c ∈ [hasKey, hasValue]) {subject : Subject}
    (h : c ∈ subject.comparisons) : subject = .jsonBody := by
  simp only [List.mem_cons, List.not_mem_nil, or_false] at hc
  cases subject with
  | jsonBody => rfl
  | statusCode | body | header => rcases hc with rfl | rfl <;> simp [Subject.comparisons] at h

end Comparison

/-- Where the target has a value, an assertion holds if it does of that value. -/
theorem Family.exec_general_ok_iff_of_target {transport : Transport} {clock : Clock}
    {family : Family} {i : Nat} {r : Resource} {subject : Subject} {property target t : String}
    {c : Comparison} (h : r.Asserts subject property c target)
    (ht : (family.scope i).evaluate target = .ok t) :
    (family.exec transport clock i r).1 = .ok () ↔
      ∃ p response, (family.scope i).evaluate property = .ok p ∧
        (family.context i).response = some response ∧ subject.check p c t response = .ok () := by
  rw [exec_general_ok_iff h, ht]
  constructor
  · rintro ⟨_, p, response, ⟨⟩, hcheck⟩
    exact ⟨p, response, hcheck⟩
  · rintro ⟨p, response, hcheck⟩
    exact ⟨t, p, response, rfl, hcheck⟩

/-- The texts of an assertion's fields. An empty one need not be there. -/
def Block.assertionTexts (source property comparison target : String) : List (String × String) :=
  [("source", source), ("property", property), ("comparison", comparison), ("target", target)]

theorem Block.Gives.assertion_ofBlock_ok_iff {b : Block}
    {source property comparison target id : String} {r : Resource}
    (h : b.Gives .httpAssertion (assertionTexts source property comparison target)) :
    Resource.ofBlock id b = .ok r ↔ r.id = id ∧ r.block = b ∧
      ∃ subject : Subject, subject.name = source ∧
        (subject.needsProperty = true → property ≠ "") ∧
        ∃ c : Comparison, (c.name = comparison ∧ c ∈ subject.comparisons) ∧
          (c.needsTarget = true → target ≠ "") ∧
          r.kind = .assertion (.general subject property c target) := by
  have hsource : textOf "source" b.fields = source := h.textOf_eq rfl
  have hproperty : textOf "property" b.fields = property := h.textOf_eq rfl
  have hcomparison : textOf "comparison" b.fields = comparison := h.textOf_eq rfl
  have htarget : textOf "target" b.fields = target := h.textOf_eq rfl
  rw [h.ofBlock_ok_iff, Kind.ofFields, Kind.assertionOf_ok_iff, hsource, hproperty, hcomparison,
    htarget]

/-- An assertion that is accepted without a target is accepted with any. It holds or fails
whatever the target is, or it looks for the target among the keys or the values of a JSON field. -/
theorem assertions_without_target (b b' : Block) (source property comparison target : String)
    (hb : b.Gives .httpAssertion (Block.assertionTexts source property comparison ""))
    (hb' : b'.Gives .httpAssertion (Block.assertionTexts source property comparison target))
    (id id' : String) (r : Resource) (hr : Resource.ofBlock id b = .ok r) :
    ∃ (c : Comparison) (s : Resource), c.name = comparison ∧ Resource.ofBlock id' b' = .ok s ∧
      ∀ (transport : Transport) (clock : Clock) (family : Family) (i : Nat) (t : String),
        (family.scope i).evaluate target = .ok t →
        let passes (r : Resource) := (family.exec transport clock i r).1 = .ok ()
        (c ∈ [.isEmpty, .isNotEmpty, .isNull, .isANumber] ∧ (passes s ↔ passes r)) ∨
        (c ∈ [.hasKey, .hasValue] ∧ (passes s ↔ ∃ p response value,
          (family.scope i).evaluate property = .ok p ∧
          (family.context i).response = some response ∧
          Json.property response.body p = .ok value ∧ c.Finds t value)) := by
  obtain ⟨_, _, subject, hsubject, hproperty, c, hc, htarget, hkind⟩ :=
    hb.assertion_ofBlock_ok_iff.mp hr
  have hneeds : c.needsTarget = false := by
    cases hneeds : c.needsTarget with
    | false => rfl
    | true => exact absurd rfl (htarget hneeds)
  obtain ⟨s, hs, hkind'⟩ : ∃ s, Resource.ofBlock id' b' = .ok s ∧
      s.kind = .assertion (.general subject property c target) := by
    refine ⟨⟨id', b', .assertion (.general subject property c target)⟩, ?_, rfl⟩
    refine hb'.assertion_ofBlock_ok_iff.mpr ⟨rfl, rfl, subject, hsubject, hproperty, c, hc, ?_, rfl⟩
    rw [hneeds]
    exact nofun
  have hr : r.Asserts subject property c "" := ⟨⟨id, b, hr⟩, hkind⟩
  have hs' : s.Asserts subject property c target := ⟨⟨id', b', hs⟩, hkind'⟩
  refine ⟨c, s, hc.1, hs, ?_⟩
  intro transport clock family i t ht passes
  have hempty : (family.scope i).evaluate "" = .ok "" :=
    (family.scope i).evaluate_plain (by decide)
  have hpasses : passes r ↔ _ := Family.exec_general_ok_iff_of_target hr hempty
  have hpasses' : passes s ↔ _ := Family.exec_general_ok_iff_of_target hs' ht
  rcases Comparison.needsTarget_eq_false_iff.mp hneeds with hignores | hfinds
  · refine .inl ⟨hignores, ?_⟩
    rw [hpasses, hpasses']
    simp only [Comparison.check_ignores_target hignores subject _ _ t ""]
  · refine .inr ⟨hfinds, ?_⟩
    have hsubject := Comparison.subject_eq_jsonBody hfinds hc.2
    rw [hpasses', hsubject]
    simp only [Subject.check_jsonBody_ok_iff, Comparison.checkJson_finds_iff hfinds,
      exists_and_left]

/-- A list is not null whatever the target is, and it has the text that is asked for. -/
theorem sample_assertions_without_target :
    let texts (c : Comparison) := Block.assertionTexts "json_body" "n" c.name
    let block (c : Comparison) (target : String) :=
      Block.ofTexts "http_assertion" "a" (texts c target)
    let resource (id : String) (c : Comparison) (target : String) : Resource :=
      ⟨id, block c target, .assertion (.general .jsonBody "n" c target)⟩
    let transport : Transport := fun _ _ => .ok ⟨200, [], []⟩
    let clock : Clock := fun n => ⟨n, 0⟩
    let response : Response := ⟨200, [], encode "\x7b\"n\": [1, \"a\"]\x7d"⟩
    let family := Family.alone .empty ⟨⟨[("x", "a")]⟩, some response⟩ .initial
    let passes (r : Resource) := (family.exec transport clock 0 r).1 = .ok ()
    let target := "$\x7bvar.x\x7d"
    (family.scope 0).evaluate target = .ok "a" ∧
      (∀ c ∈ [Comparison.isNull, .hasValue],
        (block c "").Gives .httpAssertion (texts c "") ∧
        (block c target).Gives .httpAssertion (texts c target) ∧
        Resource.ofBlock "1" (block c "") = .ok (resource "1" c "") ∧
        Resource.ofBlock "2" (block c target) = .ok (resource "2" c target)) ∧
      (passes (resource "2" .isNull target) ↔ passes (resource "1" .isNull "")) ∧
      passes (resource "2" .hasValue target) ∧ ∃ value,
        Json.property response.body "n" = .ok value ∧ Comparison.hasValue.Finds "a" value := by
  intro texts block resource transport clock response family passes target
  have ht : (family.scope 0).evaluate target = .ok "a" := by decide +kernel
  have hp : (family.scope 0).evaluate "n" = .ok "n" := by decide +kernel
  have hblocks : ∀ c ∈ [Comparison.isNull, .hasValue],
      (block c "").Gives .httpAssertion (texts c "") ∧
      (block c target).Gives .httpAssertion (texts c target) ∧
      Resource.ofBlock "1" (block c "") = .ok (resource "1" c "") ∧
      Resource.ofBlock "2" (block c target) = .ok (resource "2" c target) := by
    intro c hc
    simp only [List.mem_cons, List.not_mem_nil, or_false] at hc
    rcases hc with rfl | rfl
    · exact ⟨⟨rfl, rfl, by decide⟩, ⟨rfl, rfl, by decide⟩, rfl, rfl⟩
    · exact ⟨⟨rfl, rfl, by decide⟩, ⟨rfl, rfl, by decide⟩, rfl, rfl⟩
  have hpasses : passes (resource "2" .hasValue target) := by decide +kernel
  obtain ⟨hb, hb', hr, hs⟩ := hblocks .isNull (by simp)
  obtain ⟨hb₂, hb₂', hr₂, hs₂⟩ := hblocks .hasValue (by simp)
  obtain ⟨_, _, hc, hs', hverdict⟩ :=
    assertions_without_target _ _ _ _ _ _ hb hb' "1" "2" _ hr
  obtain ⟨_, _, hc₂, hs₂', hverdict₂⟩ :=
    assertions_without_target _ _ _ _ _ _ hb₂ hb₂' "1" "2" _ hr₂
  cases Comparison.name_inj.mp hc
  cases Comparison.name_inj.mp hc₂
  cases hs.symm.trans hs'
  cases hs₂.symm.trans hs₂'
  rcases hverdict transport clock family 0 "a" ht with ⟨_, hsame⟩ | ⟨hfinds, _⟩
  · rcases hverdict₂ transport clock family 0 "a" ht with ⟨hignores, _⟩ | ⟨_, hholds⟩
    · exact absurd hignores (by decide)
    · obtain ⟨_, _, value, hp', ⟨⟩, hvalue, hfinds⟩ := hholds.mp hpasses
      cases hp.symm.trans hp'
      exact ⟨ht, hblocks, hsame, hpasses, value, hvalue, hfinds⟩
  · exact absurd hfinds (by decide)

/-- Without a target an assertion about keys is accepted, and a target changes its verdict. -/
theorem key_verdict_depends_on_target :
    let block (target : String) := Block.ofTexts "http_assertion" "a"
      (Block.assertionTexts "json_body" "p" "has_key" target)
    let resource (target : String) : Resource :=
      ⟨"1", block target, .assertion (.general .jsonBody "p" .hasKey target)⟩
    let transport : Transport := fun _ _ => .ok ⟨200, [], []⟩
    let clock : Clock := fun n => ⟨n, 0⟩
    let response : Response := ⟨200, [], encode "\x7b\"p\": \x7b\"k\": 1\x7d\x7d"⟩
    let family := Family.alone .empty ⟨.empty, some response⟩ .initial
    Resource.ofBlock "1" (block "") = .ok (resource "") ∧
      Resource.ofBlock "1" (block "k") = .ok (resource "k") ∧
      (family.exec transport clock 0 (resource "")).1 = .error (.assertion
        "resource.http_assertion.a" (.failed .hasKey (.noKey ""))) ∧
      (family.exec transport clock 0 (resource "k")).1 = .ok () := by
  intro block resource transport clock response family
  exact ⟨rfl, rfl, by decide +kernel, by decide +kernel⟩

end HttpSuite
