import HttpSuite.Json.Path
import HttpSuite.Json.Reader
import HttpSuite.Number.Order

/-!
The numbers of a JSON body are numbers. A significand is scaled by powers of ten that are neither
zero nor infinite, so no reader of numbers gives one that is not a number, and every value inside a
value that is read is itself read.
-/

namespace HttpSuite
namespace Json

/-- Every value that a reader gives has a property. -/
def Yields {α : Type} (p : α → Prop) (read : Reader α) : Prop :=
  ∀ bytes value rest, read bytes = .ok (value, rest) → p value

/-! ### Numbers -/

def Number.IsNumber (n : Number) : Prop :=
  n.toDouble ≠ .nan

theorem Number.isNumber_integer {i : Int} : (integer i).IsNumber :=
  Binary64.ofInt_ne_nan

theorem Number.isNumber_double {x : Binary64} (h : x ≠ .nan) : (double x).IsNumber := h

/-- The powers of ten by which significands are scaled have doubles other than zero. -/
theorem powerOfTen_isFactor {n : Nat} (h : n ≤ 308) : (powerOfTen n).isFactor = true := by
  have hall : ∀ k < 309, (powerOfTen k).isFactor = true := by decide +kernel
  exact hall n (Nat.lt_succ_of_le h)

theorem scale?_ne_nan {significand : Nat} {exponent : Int} {x : Binary64}
    (h : scale? significand exponent = some x) : x ≠ .nan := by
  have hfactor : ∀ e : Int, e ≤ 308 → (powerOfTen e.toNat).isFactor = true :=
    fun e he => powerOfTen_isFactor (by omega)
  have hnat : Binary64.ofNat significand ≠ .nan := Binary64.ofNat_ne_nan
  simp only [scale?] at h
  split at h
  · cases h
    exact hnat
  · split at h
    · cases h
    · split at h
      · split at h
        · cases h
        · cases h
          exact Binary64.times_ne_nan hnat (hfactor _ (by omega))
      · split at h
        · cases h
          exact Binary64.dividedBy_ne_nan hnat (hfactor _ (by omega))
        · split at h
          · cases h
            refine Binary64.dividedBy_ne_nan ?_ (hfactor _ (by omega))
            exact Binary64.dividedBy_ne_nan hnat (powerOfTen_isFactor (Nat.le_refl _))
          · cases h
            exact Binary64.zero_ne_nan

theorem finishDouble_isNumber {negative : Bool} {significand : Nat} {exponent : Int} :
    Yields Number.IsNumber (finishDouble negative significand exponent) := by
  intro bytes n rest h
  simp only [finishDouble] at h
  split at h
  · next x hscale =>
      cases h
      have hx := scale?_ne_nan hscale
      apply Number.isNumber_double
      split
      · exact Binary64.negate_ne_nan hx
      · exact hx
  · cases h

theorem readPower_isNumber {negative down : Bool} {significand power : Nat} {base : Int} :
    Yields Number.IsNumber (readPower negative significand base down power) := by
  intro bytes n rest h
  fun_induction readPower negative significand base down power bytes with
  | case1 | case5 => exact finishDouble_isNumber _ _ _ h
  | case2 power byte bytes hdigit next hfits ih => exact ih h
  | case3 => cases h
  | case4 =>
      cases h
      exact Number.isNumber_double Binary64.zero_ne_nan

theorem readPowerDigits_isNumber {negative down : Bool} {significand : Nat} {base : Int} :
    Yields Number.IsNumber (readPowerDigits negative significand base down) := by
  intro bytes n rest h
  cases bytes with
  | nil => cases h
  | cons byte bytes =>
      simp only [readPowerDigits] at h
      split at h
      · exact readPower_isNumber _ _ _ h
      · cases h

theorem readExponent_isNumber {negative : Bool} {significand : Nat} {base : Int} :
    Yields Number.IsNumber (readExponent negative significand base) := by
  intro bytes n rest h
  unfold readExponent at h
  split at h <;> exact readPowerDigits_isNumber _ _ _ h

theorem readTail_isNumber {negative : Bool} {significand : Nat} {exponent : Int} :
    Yields Number.IsNumber (readTail negative significand exponent) := by
  intro bytes n rest h
  cases bytes with
  | nil => exact finishDouble_isNumber _ _ _ h
  | cons byte bytes =>
      simp only [readTail] at h
      split at h
      · exact readExponent_isNumber _ _ _ h
      · exact finishDouble_isNumber _ _ _ h

theorem readPlaces_isNumber {negative : Bool} {significand : Nat} {exponent : Int} :
    Yields Number.IsNumber (readPlaces negative significand exponent) := by
  intro bytes n rest h
  simp only [readPlaces] at h
  split at h
  · exact readTail_isNumber _ _ _ h
  · split at h
    · cases h
    · exact readTail_isNumber _ _ _ h

theorem ofSignificand_isNumber {negative : Bool} {significand : Nat} :
    (ofSignificand negative significand).IsNumber := by
  rw [ofSignificand]
  split
  · exact Number.isNumber_integer
  · split
    · exact Number.isNumber_integer
    · exact Number.isNumber_double (Binary64.negate_ne_nan Binary64.ofNat_ne_nan)

theorem readAfterWhole_isNumber {negative : Bool} {significand : Nat} :
    Yields Number.IsNumber (readAfterWhole negative significand) := by
  intro bytes n rest h
  unfold readAfterWhole at h
  split at h
  · exact readPlaces_isNumber _ _ _ h
  · exact readExponent_isNumber _ _ _ h
  · exact readExponent_isNumber _ _ _ h
  · split at h
    · simp only at h
      split at h
      · exact readPlaces_isNumber _ _ _ h
      · exact readTail_isNumber _ _ _ h
    · cases h
      exact ofSignificand_isNumber

theorem readNumber_isNumber {negative : Bool} :
    Yields Number.IsNumber (readNumber negative) := by
  intro bytes n rest h
  cases bytes with
  | nil => cases h
  | cons byte bytes =>
      simp only [readNumber] at h
      split at h
      · split at h
        · cases h
        · exact readAfterWhole_isNumber _ _ _ h
      · split at h
        · exact readAfterWhole_isNumber _ _ _ h
        · cases h

/-! ### Values -/

/-- Every number inside a value is a number. -/
inductive Numeric : Json → Prop where
  | null : Numeric .null
  | bool (value : Bool) : Numeric (.bool value)
  | number {n : Number} (h : n.IsNumber) : Numeric (.number n)
  | text (value : String) : Numeric (.text value)
  | list {items : List Json} (h : ∀ item ∈ items, Numeric item) : Numeric (.list items)
  | object {members : List (String × Json)} (h : ∀ m ∈ members, Numeric m.2) :
      Numeric (.object members)

theorem mem_putMember {key : String} {value : Json} {members : List (String × Json)}
    {m : String × Json} (h : m ∈ putMember key value members) : m = (key, value) ∨ m ∈ members := by
  fun_induction putMember key value members <;> grind

theorem numeric_ofMembers {members : List (String × Json)} (h : ∀ m ∈ members, Numeric m.2) :
    (ofMembers members).Numeric := by
  refine .object (List.foldlRecOn
    (motive := fun placed : List (String × Json) => ∀ m ∈ placed, Numeric m.2) members _
    (List.forall_mem_nil _) ?_)
  intro placed hplaced member hmember m hm
  rcases mem_putMember hm with rfl | hm
  · exact h member hmember
  · exact hplaced m hm

theorem Yields.map {α β : Type} {p : α → Prop} {q : β → Prop} {read : Reader α} {f : α → β}
    (hread : Yields p read) (hf : ∀ a, p a → q (f a)) {bytes rest : List UInt8} {value : β}
    (h : ((read bytes).map fun (a, rest) => (f a, rest)) = .ok (value, rest)) : q value := by
  cases hbytes : read bytes with
  | error e =>
      rw [hbytes] at h
      cases h
  | ok pair =>
      rw [hbytes] at h
      cases h
      exact hf _ (hread _ _ _ hbytes)

theorem readName_value {α : Type} {value v : α} {letters bytes rest : List UInt8}
    (h : readName value letters bytes = .ok (v, rest)) : v = value := by
  fun_induction readName value letters bytes <;> grind [stop]

theorem readMember_numeric {item : Reader Json} (hitem : Yields Numeric item) :
    Yields (fun m => Numeric m.2) (readMember item) := by
  intro bytes member rest h
  simp only [readMember] at h
  split at h
  · cases h
  · split at h
    · cases h
    · split at h
      · cases h
      · next hvalue =>
          cases h
          exact hitem _ _ _ hvalue

theorem readItems_numeric {item : Reader Json} {hshortens : Shortens item}
    (hitem : Yields Numeric item) (first : Bool) :
    Yields (fun values => ∀ v ∈ values, Numeric v) (readItems item hshortens first) := by
  intro bytes values rest h
  fun_induction readItems item hshortens first bytes generalizing values rest with
  | case1 | case3 | case4 => cases h
  | case2 =>
      cases h
      exact List.forall_mem_nil _
  | case5 _ _ _ _ _ _ hread _ _ _ hrest ih =>
      cases h
      exact List.forall_mem_cons.mpr ⟨hitem _ _ _ hread, ih _ _ hrest⟩

theorem readMembers_numeric {item : Reader Json} {hshortens : Shortens item}
    (hitem : Yields Numeric item) (first : Bool) :
    Yields (fun members => ∀ m ∈ members, Numeric m.2) (readMembers item hshortens first) := by
  intro bytes members rest h
  fun_induction readMembers item hshortens first bytes generalizing members rest with
  | case1 | case3 | case4 => cases h
  | case2 =>
      cases h
      exact List.forall_mem_nil _
  | case5 _ _ _ _ _ _ hread _ _ _ hrest ih =>
      cases h
      exact List.forall_mem_cons.mpr ⟨readMember_numeric hitem _ _ _ hread, ih _ _ hrest⟩

/-- Values are numeric if those are that the reader inside lists and objects gives. -/
theorem readFrom_numeric {nested : Option { read : Reader Json // Shortens read }}
    (hnested : ∀ item ∈ nested, Yields Numeric item.1) (byte : UInt8) :
    Yields Numeric (readFrom nested byte) := by
  intro bytes value rest h
  unfold readFrom at h
  repeat' split at h
  · rw [readName_value h]
    exact .null
  · rw [readName_value h]
    exact .bool true
  · rw [readName_value h]
    exact .bool false
  · exact readNumber_isNumber.map (fun _ => .number) h
  · exact readNumber_isNumber.map (fun _ => .number) h
  · have hstring : Yields (fun _ => True) readString := fun _ _ _ _ => trivial
    exact hstring.map (fun s _ => .text s) h
  · cases h
  · next item =>
      exact (readItems_numeric (hnested item rfl) true).map (fun _ => .list) h
  · cases h
  · next item =>
      exact (readMembers_numeric (hnested item rfl) true).map (fun _ => numeric_ofMembers) h
  · cases h

theorem readValue_numeric {nested : Option { read : Reader Json // Shortens read }}
    (hnested : ∀ item ∈ nested, Yields Numeric item.1) : Yields Numeric (readValue nested) := by
  intro bytes value rest h
  unfold readValue at h
  split at h
  · cases h
  · exact readFrom_numeric hnested _ _ _ _ h

theorem reader_numeric (levels : Nat) : Yields Numeric (reader levels).1 := by
  induction levels with
  | zero => exact readValue_numeric (by simp)
  | succ levels ih =>
      apply readValue_numeric
      rintro _ ⟨⟩
      exact ih

theorem read_numeric {bytes : List UInt8} {value : Json} (h : read bytes = .ok value) :
    value.Numeric := by
  simp only [read] at h
  cases hread : (reader nestingLimit).1 bytes with
  | error e =>
      rw [hread] at h
      cases h
  | ok pair =>
      simp only [hread] at h
      split at h
      · next hresult =>
          split at hresult
          · cases h
            cases hresult
            exact reader_numeric _ _ _ _ hread
          · cases hresult
      · cases h

/-! ### Paths -/

theorem numeric_member? {key : String} {members : List (String × Json)} {value : Json}
    (h : ∀ m ∈ members, Numeric m.2) (hmember : member? key members = some value) :
    value.Numeric := by
  fun_induction member? key members with
  | case1 => cases hmember
  | case2 =>
      cases hmember
      exact h _ List.mem_cons_self
  | case3 _ _ _ _ ih => exact ih (fun m hm => h m (List.mem_cons_of_mem _ hm)) hmember

theorem numeric_atKey {key : String} {value item : Json} (h : value.Numeric)
    (hitem : atKey key value = .ok item) : item.Numeric := by
  unfold atKey at hitem
  split at hitem
  · split at hitem
    · next hmember =>
        cases hitem
        cases h with
        | object hmembers => exact numeric_member? hmembers hmember
    · cases hitem
  · cases hitem

theorem numeric_atIndex {index : Nat} {value item : Json} (h : value.Numeric)
    (hitem : atIndex index value = .ok item) : item.Numeric := by
  unfold atIndex at hitem
  split at hitem
  · split at hitem
    · next hget =>
        cases hitem
        cases h with
        | list hitems => exact hitems _ (List.mem_of_getElem? hget)
    · cases hitem
  · cases hitem

theorem numeric_followIndices {cs : List Char} {value item : Json} (h : value.Numeric)
    (hitem : followIndices cs value = .ok item) : item.Numeric := by
  fun_induction followIndices cs value with
  | case1 =>
      cases hitem
      exact h
  | case2 | case3 | case4 | case5 => cases hitem
  | case6 _ _ _ _ _ _ _ _ _ _ _ hindex ih => exact ih (numeric_atIndex h hindex) hitem

theorem numeric_followSegment {segment : List Char} {value item : Json} (h : value.Numeric)
    (hitem : followSegment value segment = .ok item) : item.Numeric := by
  simp only [followSegment] at hitem
  split at hitem
  · split at hitem
    · cases hitem
    · exact numeric_followIndices h hitem
  · split at hitem
    · cases hitem
    · next hkey => exact numeric_followIndices (numeric_atKey h hkey) hitem

/-- A path leads from a numeric value to numeric values only. -/
theorem numeric_follow {path : List Char} {value item : Json} (h : value.Numeric)
    (hitem : value.follow path = .ok item) : item.Numeric := by
  rw [follow] at hitem
  generalize Text.fields '.' path = segments at hitem
  induction segments generalizing value with
  | nil =>
      cases hitem
      exact h
  | cons segment more ih =>
      rw [List.foldlM_cons] at hitem
      cases hsegment : followSegment value segment with
      | error e =>
          rw [hsegment] at hitem
          cases hitem
      | ok inner =>
          rw [hsegment] at hitem
          exact ih (numeric_followSegment h hsegment) hitem

end Json
end HttpSuite
