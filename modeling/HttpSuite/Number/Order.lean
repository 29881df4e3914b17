import HttpSuite.Number.Binary64

/-!
The order of doubles. Every double but one has a position on the line, and rounding never gives
that one: it comes only of infinities and zeros that cancel each other.
-/

namespace HttpSuite
namespace Binary64

variable {x y : Binary64}

theorem position?_eq_none_iff : x.position? = none ↔ x = nan := by
  cases x with
  | finite negative m e canonical =>
      exact iff_of_false (Option.some_ne_none _) Binary64.noConfusion
  | infinite negative => exact iff_of_false (Option.some_ne_none _) Binary64.noConfusion
  | nan => exact iff_of_true rfl rfl

theorem exists_position (h : x ≠ nan) : ∃ a, x.position? = some a :=
  Option.ne_none_iff_exists'.mp fun hnone => h (position?_eq_none_iff.mp hnone)

theorem compare_eq_true_iff {holds : Int → Int → Bool} :
    compare holds x y = true ↔
      ∃ a b, x.position? = some a ∧ y.position? = some b ∧ holds a b = true := by
  rw [compare]
  cases x.position? <;> cases y.position? <;> simp

theorem zero_ne_nan {negative : Bool} : zero negative ≠ nan :=
  Binary64.noConfusion

theorem ofRatio_ne_nan {negative : Bool} {num den : Nat} : ofRatio negative num den ≠ nan := by
  rw [ofRatio]
  split
  split <;> simp

theorem ofNat_ne_nan {n : Nat} : ofNat n ≠ nan :=
  ofRatio_ne_nan

theorem ofInt_ne_nan {n : Int} : ofInt n ≠ nan :=
  ofRatio_ne_nan

theorem negate_ne_nan (h : x ≠ nan) : x.negate ≠ nan := by
  cases x with
  | finite negative m e canonical => exact Binary64.noConfusion
  | infinite negative => exact Binary64.noConfusion
  | nan => exact absurd rfl h

/-- Whether a double is finite and not zero. -/
def isFactor : Binary64 → Bool
  | finite _ m _ _ => m != 0
  | _ => false

theorem times_ne_nan (hx : x ≠ nan) (hy : y.isFactor = true) : x.times y ≠ nan := by
  cases y with
  | nan | infinite _ => cases hy
  | finite t n f _ =>
      have hn : n ≠ 0 := bne_iff_ne.mp hy
      cases x with
      | finite s m e _ => exact ofRatio_ne_nan
      | infinite s => simp [times, hn]
      | nan => exact absurd rfl hx

theorem dividedBy_ne_nan (hx : x ≠ nan) (hy : y.isFactor = true) : x.dividedBy y ≠ nan := by
  cases y with
  | nan | infinite _ => cases hy
  | finite t n f _ =>
      have hn : n ≠ 0 := bne_iff_ne.mp hy
      cases x with
      | finite s m e _ =>
          rw [dividedBy, if_neg hn]
          exact ofRatio_ne_nan
      | infinite s => exact Binary64.noConfusion
      | nan => exact absurd rfl hx

end Binary64
end HttpSuite
