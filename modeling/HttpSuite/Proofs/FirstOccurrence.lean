import Mathlib.Data.List.Nodup

/-!
Lists in which each item stands where it first occurred. An item that is there already is not
added again. The names of a table of variables and the keys of a registry grow in this way, and what
they lead to is the last item of its kind.
-/

namespace HttpSuite

section Last

variable {β : Type}

/-- The last item of a kind is among the later ones, or it is the first. -/
theorem find?_reverse_cons (p : β → Bool) (b : β) (more : List β) :
    (b :: more).reverse.find? p = (more.reverse.find? p).or (if p b then some b else none) := by
  rw [List.reverse_cons, List.find?_append, List.find?_singleton]

theorem find?_reverse_concat (p : β → Bool) (items : List β) (b : β) :
    (items ++ [b]).reverse.find? p = if p b then some b else items.reverse.find? p := by
  rw [List.reverse_concat, List.find?_cons]
  cases p b <;> rfl

end Last

variable {α : Type} [DecidableEq α]

/-- Adds an item at the end unless it is there. -/
def addNew (items : List α) (a : α) : List α :=
  if a ∈ items then items else items ++ [a]

theorem addNew_of_mem {items : List α} {a : α} (h : a ∈ items) : addNew items a = items :=
  if_pos h

theorem addNew_of_not_mem {items : List α} {a : α} (h : a ∉ items) :
    addNew items a = items ++ [a] :=
  if_neg h

theorem addNew_cons_self (a : α) (items : List α) : addNew (a :: items) a = a :: items :=
  addNew_of_mem List.mem_cons_self

theorem addNew_cons_ne {a b : α} (h : b ≠ a) (items : List α) :
    addNew (b :: items) a = b :: addNew items a := by
  by_cases ha : a ∈ items
  · rw [addNew_of_mem ha, addNew_of_mem (List.mem_cons_of_mem b ha)]
  · have hcons : a ∉ b :: items := by
      rw [List.mem_cons, not_or]
      exact ⟨Ne.symm h, ha⟩
    rw [addNew_of_not_mem ha, addNew_of_not_mem hcons, List.cons_append]

theorem nodup_addNew {items : List α} (h : items.Nodup) (a : α) : (addNew items a).Nodup := by
  by_cases ha : a ∈ items
  · rwa [addNew_of_mem ha]
  · rw [addNew_of_not_mem ha]
    refine List.nodup_append.mpr ⟨h, by simp, ?_⟩
    intro b hb c hc heq
    rw [List.mem_singleton.mp hc] at heq
    exact ha (heq ▸ hb)

/-- The items of a list, each where it first occurs. -/
def distinct (items : List α) : List α :=
  items.foldl addNew []

theorem nodup_foldl_addNew {start : List α} (h : start.Nodup) (items : List α) :
    (items.foldl addNew start).Nodup := by
  induction items generalizing start with
  | nil => exact h
  | cons a more ih => exact ih (nodup_addNew h a)

theorem nodup_distinct (items : List α) : (distinct items).Nodup :=
  nodup_foldl_addNew List.nodup_nil items

theorem mem_addNew {items : List α} {a b : α} : b ∈ addNew items a ↔ b ∈ items ∨ b = a := by
  by_cases ha : a ∈ items
  · rw [addNew_of_mem ha]
    constructor
    · exact Or.inl
    · intro h
      exact h.elim id fun hba => hba ▸ ha
  · rw [addNew_of_not_mem ha, List.mem_append, List.mem_singleton]

theorem mem_distinct {items : List α} {a : α} : a ∈ distinct items ↔ a ∈ items := by
  have hfold : ∀ start : List α, a ∈ items.foldl addNew start ↔ a ∈ start ∨ a ∈ items := by
    induction items with
    | nil => simp
    | cons b more ih =>
        intro start
        rw [List.foldl_cons, ih, mem_addNew, List.mem_cons, or_assoc]
  simp [distinct, hfold]

theorem distinct_concat (items : List α) (a : α) :
    distinct (items ++ [a]) = addNew (distinct items) a := by
  simp only [distinct, List.foldl_append, List.foldl_cons, List.foldl_nil]

theorem distinct_append (items more : List α) :
    distinct (items ++ more) = more.foldl addNew (distinct items) :=
  List.foldl_append

theorem filter_addNew (p : α → Bool) (items : List α) (a : α) :
    (addNew items a).filter p =
      if p a then addNew (items.filter p) a else items.filter p := by
  by_cases ha : a ∈ items <;> by_cases hp : p a <;> simp [addNew, ha, hp]

/-- Items that are dropped beforehand leave the others in their order. -/
theorem foldl_addNew_filter (p : α → Bool) (items start : List α) :
    (items.foldl addNew start).filter p = (items.filter p).foldl addNew (start.filter p) := by
  induction items generalizing start with
  | nil => rfl
  | cons a more ih =>
      rw [List.foldl_cons, ih, filter_addNew]
      by_cases hp : p a <;> simp [hp]

theorem distinct_filter (p : α → Bool) (items : List α) :
    (distinct items).filter p = distinct (items.filter p) :=
  foldl_addNew_filter p items []

theorem foldl_addNew_of_nodup {start items : List α} (h : (start ++ items).Nodup) :
    items.foldl addNew start = start ++ items := by
  induction items generalizing start with
  | nil => simp
  | cons a more ih =>
      have ha : a ∉ start := fun hmem => (List.nodup_append.mp h).2.2 a hmem a (by simp) rfl
      rw [List.append_cons] at h
      rw [List.foldl_cons, addNew_of_not_mem ha, ih h, ← List.append_cons]

theorem distinct_of_nodup {items : List α} (h : items.Nodup) : distinct items = items := by
  have hstart : ([] ++ items).Nodup := h
  exact foldl_addNew_of_nodup hstart

end HttpSuite
