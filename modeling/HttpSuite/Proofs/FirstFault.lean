import Mathlib.Data.List.Basic

/-!
Passes over a list that end at the first fault. What a pass reports is the fault of an item
before which no other has one, and a pass succeeds if no item has any. A pass over joined lists
is a pass over the one and then, if it has found nothing, over the other.
-/

namespace HttpSuite

variable {α ε : Type} {faulty : α → ε → Prop}

/-- No item has a fault. -/
def Faultless (faulty : α → ε → Prop) (items : List α) : Prop :=
  ∀ x ∈ items, ∀ e, ¬ faulty x e

/-- The fault is that of the first item which has one. -/
def FirstFault (faulty : α → ε → Prop) (items : List α) (e : ε) : Prop :=
  ∃ before x after, items = before ++ x :: after ∧ Faultless faulty before ∧ faulty x e

theorem Faultless.nil : Faultless faulty [] :=
  fun _ h => absurd h List.not_mem_nil

theorem faultless_cons {x : α} {items : List α} :
    Faultless faulty (x :: items) ↔ (∀ e, ¬ faulty x e) ∧ Faultless faulty items :=
  List.forall_mem_cons

theorem faultless_perm {xs ys : List α} (h : xs.Perm ys) :
    Faultless faulty xs ↔ Faultless faulty ys :=
  forall_congr' fun _ => imp_congr_left h.mem_iff

theorem FirstFault.exists {items : List α} {e : ε} (h : FirstFault faulty items e) :
    ∃ x ∈ items, faulty x e := by
  obtain ⟨before, x, after, rfl, _, hx⟩ := h
  exact ⟨x, by simp, hx⟩

theorem FirstFault.not_nil {e : ε} : ¬ FirstFault faulty [] e := by
  rintro ⟨before, x, after, h, _⟩
  cases before <;> cases h

theorem firstFault_cons {x : α} {items : List α} {e : ε} :
    FirstFault faulty (x :: items) e ↔
      faulty x e ∨ (∀ e', ¬ faulty x e') ∧ FirstFault faulty items e := by
  constructor
  · rintro ⟨before, y, after, h, hbefore, hy⟩
    cases before with
    | nil =>
        cases h
        exact .inl hy
    | cons z more =>
        cases h
        obtain ⟨hx, hmore⟩ := faultless_cons.mp hbefore
        exact .inr ⟨hx, more, y, after, rfl, hmore, hy⟩
  · rintro (hx | ⟨hx, before, y, after, rfl, hbefore, hy⟩)
    · exact ⟨[], x, items, rfl, .nil, hx⟩
    · exact ⟨x :: before, y, after, rfl, faultless_cons.mpr ⟨hx, hbefore⟩, hy⟩

theorem firstFault_append {xs ys : List α} {e : ε} :
    FirstFault faulty (xs ++ ys) e ↔
      FirstFault faulty xs e ∨ Faultless faulty xs ∧ FirstFault faulty ys e := by
  induction xs with
  | nil => simp [FirstFault.not_nil, Faultless.nil]
  | cons x more ih =>
      rw [List.cons_append, firstFault_cons, ih, and_or_left, firstFault_cons, faultless_cons,
        or_assoc, and_assoc]

/-- A pass finds nothing if there is nothing to find. -/
theorem faultless_iff {items : List α} :
    Faultless faulty items ↔ ∀ e, ¬ FirstFault faulty items e := by
  induction items with
  | nil => simp [FirstFault.not_nil, Faultless.nil]
  | cons x more ih =>
      simp only [faultless_cons, firstFault_cons, ih]
      constructor
      · rintro ⟨hx, hmore⟩ e (hfault | ⟨_, hfault⟩)
        · exact hx e hfault
        · exact hmore e hfault
      · intro h
        have hx : ∀ e, ¬ faulty x e := fun e hfault => h e (.inl hfault)
        exact ⟨hx, fun e hfault => h e (.inr ⟨hx, hfault⟩)⟩

/-- A pass without a result succeeds on what has no fault. -/
theorem faultless_iff_ok {items : List α} {x : Except ε Unit}
    (h : ∀ e, x = .error e ↔ FirstFault faulty items e) :
    x = .ok () ↔ Faultless faulty items := by
  rw [faultless_iff]
  cases x with
  | ok _ => simp [← h]
  | error e => simp [← h]

end HttpSuite
