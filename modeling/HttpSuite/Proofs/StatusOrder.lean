import HttpSuite.Number.Whole
import HttpSuite.Proofs.Coherence

/-!
The order of status codes. A status code is compared as a double with the double of the bound, and
a large bound is not held as it is. A status code and the numbers next to it are held, so rounding
takes no bound past it and the order is that of the integers.
-/

namespace HttpSuite

open HttpSuite.Text

namespace Comparison

/-- The order of integers that an ordering stands for. -/
def Orders : Comparison → Int → Int → Prop
  | lessThan, a, b => a < b
  | lessThanOrEqual, a, b => a ≤ b
  | greaterThan, a, b => a > b
  | greaterThanOrEqual, a, b => a ≥ b
  | _, _, _ => False

variable {c : Comparison}

theorem relation_eq_true_iff (hordering : c.isOrdering = true) {a b : Int} :
    c.relation a b = true ↔ c.Orders a b := by
  cases c with
  | lessThan | lessThanOrEqual | greaterThan | greaterThanOrEqual => exact decide_eq_true_iff
  | _ => cases hordering

theorem orders_mul_iff {unit : Int} (hunit : 0 < unit) {a b : Int} :
    c.Orders (a * unit) (b * unit) ↔ c.Orders a b := by
  have hlt (a b : Int) : a * unit < b * unit ↔ a < b := Int.mul_lt_mul_right hunit
  have hle (a b : Int) : a * unit ≤ b * unit ↔ a ≤ b := Int.mul_le_mul_right hunit
  cases c with
  | lessThan => exact hlt a b
  | lessThanOrEqual => exact hle a b
  | greaterThan => exact hlt b a
  | greaterThanOrEqual => exact hle b a
  | _ => exact Iff.rfl

/-- A small number and a large one are ordered as the small one and the double of the other. -/
theorem orders_nearest_iff {q n r : Int} (h : Binary64.IsNearest n r)
    (hq : q.natAbs + 1 < Nat.pow 2 53) : c.Orders q r ↔ c.Orders q n := by
  have hlt := h.lt_iff hq
  have hgt := h.gt_iff hq
  cases c with
  | lessThan => exact hlt
  | lessThanOrEqual => rw [Orders, Orders, ← Int.not_lt, ← Int.not_lt, hgt]
  | greaterThan => exact hgt
  | greaterThanOrEqual => rw [Orders, Orders, ge_iff_le, ge_iff_le, ← Int.not_lt, ← Int.not_lt, hlt]
  | _ => exact Iff.rfl

theorem checkNumber_whole_ok_iff (hordering : c.isOrdering = true) {x y : Binary64} {a b : Int}
    (hx : x.IsWhole a) (hy : y.IsWhole b) : c.checkNumber x y = .ok () ↔ c.Orders a b := by
  obtain ⟨unit, hunit, hposition⟩ := Binary64.exists_unit
  have hunit : 0 < (unit : Int) := Int.natCast_pos.mpr hunit
  rw [checkNumber_ok_iff, hposition hx, hposition hy, ← orders_mul_iff hunit,
    ← relation_eq_true_iff hordering]
  simp

/-- A bound that is read decides as the integer that it stands for. -/
theorem checkStatus_ok_iff_orders (hordering : c.isOrdering = true) {status : UInt16}
    {target : String} {b : Int} (hb : Denotes (trim target.toList) b) (hleast : leastWord ≤ b)
    (hmost : b ≤ greatestWord) :
    c.checkStatus status target = .ok () ↔ c.Orders status.toNat b := by
  have hread := readWhole?_eq_some_iff.mpr ⟨hb, hleast, hmost⟩
  have hstatus : status.toNat + 1 < Nat.pow 2 53 :=
    Nat.lt_of_le_of_lt status.toNat_lt (by decide)
  have hword : b.natAbs ≤ Nat.pow 2 64 :=
    natAbs_le_of_word hleast (Int.le_trans hmost (by decide))
  obtain ⟨r, hnearest, hwhole⟩ := Binary64.ofInt_isWhole_of_le hword
  have hvalue : (Binary64.ofNat status.toNat).IsWhole status.toNat :=
    Binary64.ofNat_isWhole (Nat.lt_of_succ_lt hstatus)
  have horders : c.Orders status.toNat r ↔ c.Orders status.toNat b :=
    orders_nearest_iff hnearest hstatus
  rw [checkStatus_ok_iff hordering, hread, ← horders,
    ← checkNumber_whole_ok_iff hordering hvalue hwhole]
  simp only [Option.some.injEq, exists_eq_left']

/-- Without a bound that is read no ordering holds. -/
theorem checkStatus_notStatus (hordering : c.isOrdering = true) {status : UInt16} {target : String}
    (h : ¬∃ b, Denotes (trim target.toList) b ∧ leastWord ≤ b ∧ b ≤ greatestWord) :
    c.checkStatus status target = .error (.failed c (.notStatus target)) := by
  have hread : readWhole? leastWord greatestWord (trim target.toList) = none := by
    rw [Option.eq_none_iff_forall_not_mem]
    intro b hb
    exact h ⟨b, readWhole?_eq_some_iff.mp hb⟩
  cases c with
  | lessThan | lessThanOrEqual | greaterThan | greaterThanOrEqual => simp only [checkStatus, hread]
  | _ => cases hordering

end Comparison

/-- An accepted ordering of the status code holds if that of the integers does, for each bound of
64 bits, and fails if the target has no such bound. -/
theorem status_codes_compare_as_integers (transport : Transport) (clock : Clock) (family : Family)
    (i : Nat) {r : Resource} {c : Comparison} {property target t p : String} {response : Response}
    (h : r.Asserts .statusCode property c target) (hordering : c.isOrdering = true)
    (ht : (family.scope i).evaluate target = .ok t)
    (hp : (family.scope i).evaluate property = .ok p)
    (hresponse : (family.context i).response = some response) :
    let passes := (family.exec transport clock i r).1 = .ok ()
    (∀ b, Denotes (trim t.toList) b → leastWord ≤ b → b ≤ greatestWord →
      (passes ↔ c.Orders response.status.toNat b)) ∧
    ((¬∃ b, Denotes (trim t.toList) b ∧ leastWord ≤ b ∧ b ≤ greatestWord) → ¬passes) := by
  intro passes
  have hcheck : passes ↔ c.checkStatus response.status t = .ok () :=
    Family.exec_general_ok_iff_check h ht hp hresponse
  constructor
  · intro b hb hleast hmost
    rw [hcheck]
    exact Comparison.checkStatus_ok_iff_orders hordering hb hleast hmost
  · intro hnone hpasses
    have hfails : c.checkStatus response.status t = .error (.failed c (.notStatus t)) :=
      Comparison.checkStatus_notStatus hordering hnone
    have hholds := hcheck.mp hpasses
    rw [hfails] at hholds
    cases hholds

/-- The greatest bound, one that the status code reaches, and one that is not a whole number. -/
theorem sample_status_codes_compare_as_integers :
    let target := "$\x7bvar.bound\x7d"
    let assertion : Resource :=
      { id := "1"
        block := .ofTexts "http_assertion" "a" [("source", "status_code"),
          ("comparison", "less_than"), ("target", target)]
        kind := .assertion (.general .statusCode "" .lessThan target) }
    let transport : Transport := fun _ _ => .ok ⟨200, [], []⟩
    let clock : Clock := fun n => ⟨n, 0⟩
    let family (bound : String) :=
      Family.alone .empty ⟨⟨[("bound", bound)]⟩, some ⟨200, [], []⟩⟩ .initial
    let passes (bound : String) := ((family bound).exec transport clock 0 assertion).1 = .ok ()
    assertion.Asserts .statusCode "" .lessThan target ∧ Comparison.lessThan.isOrdering = true ∧
      (∀ bound ∈ [" 9223372036854775807\n", "+200", "2e2"],
        ((family bound).scope 0).evaluate target = .ok bound ∧
        ((family bound).scope 0).evaluate "" = .ok "" ∧
        ((family bound).context 0).response = some ⟨200, [], []⟩) ∧
      Denotes (trim " 9223372036854775807\n".toList) 9223372036854775807 ∧
      Denotes (trim "+200".toList) 200 ∧
      (¬∃ b, Denotes (trim "2e2".toList) b ∧ leastWord ≤ b ∧ b ≤ greatestWord) ∧
      passes " 9223372036854775807\n" ∧ ¬passes "+200" ∧ ¬passes "2e2" := by
  intro target assertion transport clock family passes
  have hblock : Resource.ofBlock "1" assertion.block = .ok assertion := by decide
  have hasserts : assertion.Asserts .statusCode "" .lessThan target := ⟨⟨"1", _, hblock⟩, rfl⟩
  have hvalues : ∀ bound ∈ [" 9223372036854775807\n", "+200", "2e2"],
      ((family bound).scope 0).evaluate target = .ok bound ∧
      ((family bound).scope 0).evaluate "" = .ok "" ∧
      ((family bound).context 0).response = some ⟨200, [], []⟩ := by decide +kernel
  have hgreatest : Denotes (trim " 9223372036854775807\n".toList) 9223372036854775807 :=
    (readWhole?_eq_some_iff.mp (by decide :
      readWhole? leastWord greatestWord _ = some _)).1
  have hequal : Denotes (trim "+200".toList) 200 :=
    (readWhole?_eq_some_iff.mp (by decide : readWhole? leastWord greatestWord _ = some _)).1
  have hnone : ¬∃ b, Denotes (trim "2e2".toList) b ∧ leastWord ≤ b ∧ b ≤ greatestWord := by
    rintro ⟨b, hb⟩
    have hread := readWhole?_eq_some_iff.mpr hb
    rw [show readWhole? leastWord greatestWord (trim "2e2".toList) = none by decide] at hread
    cases hread
  have horders (bound : String) (hbound : bound ∈ [" 9223372036854775807\n", "+200", "2e2"]) :=
    status_codes_compare_as_integers transport clock (family bound) 0 hasserts rfl
      (hvalues bound hbound).1 (hvalues bound hbound).2.1 (hvalues bound hbound).2.2
  refine ⟨hasserts, rfl, hvalues, hgreatest, hequal, hnone, ?_, ?_, ?_⟩
  · exact ((horders _ (by simp)).1 _ hgreatest (by decide) (by decide)).mpr
      (by decide : (200 : Int) < 9223372036854775807)
  · intro hpasses
    have hless := ((horders _ (by simp)).1 _ hequal (by decide) (by decide)).mp hpasses
    exact absurd hless (by decide : ¬(200 : Int) < 200)
  · exact (horders _ (by simp)).2 hnone

end HttpSuite
