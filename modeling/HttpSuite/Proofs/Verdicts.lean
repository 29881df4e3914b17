import HttpSuite.Proofs.Execution

/-!
When comparisons hold. A verdict is about the value alone that an assertion looks at, so an
assertion holds in a context if its templates have values, there is a response, and the comparison
holds of the part of it that the subject names.
-/

namespace HttpSuite
namespace Comparison

theorem require_ok_iff {c : Comparison} {holds : Bool} {finding : Finding} :
    c.require holds finding = .ok () ↔ holds = true := by
  cases holds with
  | true => exact ⟨fun _ => rfl, fun _ => rfl⟩
  | false => exact ⟨nofun, nofun⟩

theorem require_not_both {c d : Comparison} (holds : Bool) {finding finding' : Finding}
    (hc : c.require holds finding = .ok ()) : d.require (!holds) finding' ≠ .ok () := by
  rw [require_ok_iff] at hc
  rw [ne_eq, require_ok_iff, hc]
  exact Bool.false_ne_true

theorem require_one {c d : Comparison} (holds : Bool) {finding finding' : Finding} :
    c.require holds finding = .ok () ∨ d.require (!holds) finding' = .ok () := by
  rw [require_ok_iff, require_ok_iff, Bool.not_eq_true']
  exact Bool.eq_false_or_eq_true holds

theorem checkText_equals_ok_iff {value target : String} :
    equals.checkText value target = .ok () ↔ value = target := by
  rw [checkText, require_ok_iff, beq_iff_eq]

end Comparison

namespace Assertion

theorem judge_ok_iff {reference : String} {response : Option Response}
    {check : Response → Verdict} :
    judge reference response check = .ok () ↔ ∃ r, response = some r ∧ check r = .ok () := by
  cases response with
  | none => exact ⟨nofun, nofun⟩
  | some r =>
      simp only [judge, Option.some.injEq, exists_eq_left']
      cases check r with
      | error mismatch => exact ⟨nofun, nofun⟩
      | ok u => exact ⟨fun _ => rfl, fun _ => rfl⟩

theorem check_general_ok_iff {scope : Template.Scope} {response : Option Response}
    {reference property target : String} {subject : Subject} {comparison : Comparison} :
    (general subject property comparison target).check scope response reference = .ok () ↔
      ∃ t p r, scope.evaluate target = .ok t ∧ scope.evaluate property = .ok p ∧
        response = some r ∧ subject.check p comparison t r = .ok () := by
  simp only [check, bind_eq_ok_iff, judge_ok_iff]
  constructor
  · intro ⟨t, ht, p, hp, r, hr, hcheck⟩
    exact ⟨t, p, r, ht, hp, hr, hcheck⟩
  · intro ⟨t, p, r, ht, hp, hr, hcheck⟩
    exact ⟨t, ht, p, hp, r, hr, hcheck⟩

end Assertion
end HttpSuite
