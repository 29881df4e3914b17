import HttpSuite.Family

/-!
Contexts that descend by copying from one. The registry has as many owners as there are contexts,
whatever has been done to them, so resources are registered exactly while there is one context.
An operation on a context leaves the variables and the response of every other as they are, and
what a context sees in the registry does not change unless it is operated on itself.
-/

namespace HttpSuite
namespace Family

/-- What can be done to one of the contexts. -/
inductive Operation where
  | copy (i : Nat)
  | drop (i : Nat)
  | register (i : Nat) (r : Resource)
  | setVariable (i : Nat) (name value : String)
  | setResponse (i : Nat) (response : Response)
  | clearResponse (i : Nat)
  | exec (i : Nat) (r : Resource)

namespace Operation

/-- The context that is operated on. -/
def subject : Operation → Nat
  | copy i | drop i | register i _ | setVariable i _ _ | setResponse i _ | clearResponse i
  | exec i _ => i

/-- Where a context that is not dropped stands afterwards. -/
def place : Operation → Nat → Nat
  | drop i, j => if i < j then j - 1 else j
  | _, j => j

/-- Changes the context that is operated on and nothing else that others see. -/
def IsLocal : Operation → Prop
  | copy _ | drop _ | register _ _ => False
  | setVariable _ _ _ | setResponse _ _ | clearResponse _ | exec _ _ => True

end Operation

variable (transport : Transport) (clock : Clock)

/-- The outcome of an operation on a context, and what it leaves. -/
def apply (family : Family) : Operation → Except Failure Unit × Family
  | .copy _ => (.ok (), family.copy)
  | .drop i => (.ok (), family.drop i)
  | .register _ r =>
    match family.register r with
    | .error e => (.error e, family)
    | .ok next => (.ok (), next)
  | .setVariable i name value => (.ok (), family.setVariable i name value)
  | .setResponse i response => (.ok (), family.setResponse i (some response))
  | .clearResponse i => (.ok (), family.setResponse i none)
  | .exec i r => family.exec transport clock i r

/-- Performs an operation. Nothing is done to a context that there is not. -/
def perform (family : Family) (op : Operation) : Except Failure Unit × Family :=
  if op.subject < family.contexts.length then family.apply transport clock op
  else (.ok (), family)

/-- What a history of operations leaves. -/
def after (family : Family) (history : List Operation) : Family :=
  history.foldl (fun family op => (family.perform transport clock op).2) family

/-- The registry has one owner for each context. -/
def Counted (family : Family) : Prop :=
  family.owners = family.contexts.length

variable {family : Family}

theorem perform_live {op : Operation} (h : op.subject < family.contexts.length) :
    family.perform transport clock op = family.apply transport clock op :=
  if_pos h

theorem perform_cases (holds : Except Failure Unit × Family → Prop) (op : Operation)
    (hlive : op.subject < family.contexts.length → holds (family.apply transport clock op))
    (hnone : holds (.ok (), family)) : holds (family.perform transport clock op) := by
  simp only [perform]
  split
  · next h => exact hlive h
  · exact hnone

theorem apply_local (family : Family) {op : Operation} (h : op.IsLocal) :
    ∃ f world, (family.apply transport clock op).2 =
      { family.update op.subject f with world } := by
  cases op with
  | copy i | drop i | register i r => exact h.elim
  | setVariable i name value => exact ⟨_, family.world, rfl⟩
  | setResponse i response | clearResponse i => exact ⟨_, family.world, rfl⟩
  | exec i r => exact ⟨_, _, rfl⟩

theorem apply_register (i : Nat) (r : Resource) :
    family.apply transport clock (.register i r) =
      if family.owners = 1 then (.ok (), { family with registry := (family.registry.insert r).2 })
      else (.error .registryShared, family) := by
  simp only [apply, register]
  by_cases h : family.owners = 1 <;> simp [h]

theorem counted_alone (registry : Registry) (context : Context) (world : World) :
    (alone registry context world).Counted := rfl

theorem Counted.apply (h : family.Counted) {op : Operation}
    (hlive : op.subject < family.contexts.length) :
    (family.apply transport clock op).2.Counted := by
  have howners : family.owners = family.contexts.length := h
  by_cases hlocal : op.IsLocal
  · obtain ⟨f, world, heq⟩ := family.apply_local transport clock hlocal
    simp [heq, update, Counted, howners]
  · cases op with
    | copy i => simp [Family.apply, Family.copy, Counted, howners]
    | drop i =>
        have hi : i < family.contexts.length := hlive
        simp [Family.apply, Family.drop, hi, Counted, List.length_eraseIdx_of_lt hi, howners]
    | register i r =>
        rw [apply_register]
        split <;> exact h
    | _ => exact absurd trivial hlocal

theorem Counted.perform (h : family.Counted) (op : Operation) :
    (family.perform transport clock op).2.Counted :=
  perform_cases transport clock (fun result => result.2.Counted) op
    (fun hlive => h.apply transport clock hlive) h

theorem Counted.after (h : family.Counted) (history : List Operation) :
    (family.after transport clock history).Counted := by
  induction history generalizing family with
  | nil => exact h
  | cons op more ih => exact ih (h.perform transport clock op)

theorem getElem?_eraseIdx_ne {α : Type} (xs : List α) {i j : Nat} (h : i ≠ j) :
    (xs.eraseIdx i)[if i < j then j - 1 else j]? = xs[j]? := by
  rw [List.getElem?_eraseIdx]
  by_cases hij : i < j
  · have hlast : ¬ j - 1 < i := by omega
    have hback : j - 1 + 1 = j := by omega
    simp only [hij, if_true, hlast, if_false, hback]
  · have hji : j < i := by omega
    simp only [hij, if_false, hji, if_true]

/-- Other contexts keep their variables and their response. -/
theorem apply_contexts {op : Operation} {j : Nat} (hj : j < family.contexts.length)
    (hother : op.subject ≠ j) :
    (family.apply transport clock op).2.contexts[op.place j]? = family.contexts[j]? := by
  by_cases hlocal : op.IsLocal
  · obtain ⟨f, world, heq⟩ := family.apply_local transport clock hlocal
    have hplace : op.place j = j := by
      cases op with
      | drop i => exact hlocal.elim
      | _ => rfl
    rw [heq, hplace]
    exact List.getElem?_modify_ne f family.contexts hother
  · cases op with
    | copy i => exact List.getElem?_append_left hj
    | drop i =>
        by_cases hi : i < family.contexts.length
        · simp only [Family.apply, Family.drop, hi, if_true]
          exact getElem?_eraseIdx_ne family.contexts hother
        · have hij : ¬ i < j := by omega
          simp [Family.apply, Family.drop, hi, Operation.place, hij]
    | register i r =>
        rw [apply_register]
        split <;> rfl
    | _ => exact absurd trivial hlocal

/-- The registry changes only by an operation on the only context. -/
theorem Counted.apply_registry (h : family.Counted) {op : Operation} {j : Nat}
    (hlive : op.subject < family.contexts.length) (hj : j < family.contexts.length)
    (hother : op.subject ≠ j) :
    (family.apply transport clock op).2.registry = family.registry := by
  have howners : family.owners = family.contexts.length := h
  have hseveral : family.owners ≠ 1 := by omega
  by_cases hlocal : op.IsLocal
  · obtain ⟨f, world, heq⟩ := family.apply_local transport clock hlocal
    rw [heq]
    rfl
  · cases op with
    | copy i => rfl
    | drop i =>
        simp only [Family.apply, Family.drop, hseveral, if_false]
        split <;> rfl
    | register i r => rw [apply_register, if_neg hseveral]
    | _ => exact absurd trivial hlocal

/-- Performing an operation on another context changes nothing that a context sees. -/
theorem Counted.perform_spared (h : family.Counted) {op : Operation} {j : Nat}
    (hj : j < family.contexts.length) (hother : op.subject ≠ j) :
    (family.perform transport clock op).2.contexts[op.place j]? = family.contexts[j]? ∧
      (family.perform transport clock op).2.registry = family.registry := by
  by_cases hlive : op.subject < family.contexts.length
  · rw [perform_live transport clock hlive]
    exact ⟨apply_contexts transport clock hj hother,
      h.apply_registry transport clock hlive hj hother⟩
  · have hplace : op.place j = j := by
      cases op with
      | drop i =>
          have hij : ¬ i < j := fun hij => hlive (Nat.lt_trans hij hj)
          exact if_neg hij
      | _ => rfl
    have hnone : family.perform transport clock op = (.ok (), family) := if_neg hlive
    rw [hnone, hplace]
    exact ⟨rfl, rfl⟩

/-- Where a context stands after a history. -/
def placeAfter (history : List Operation) (j : Nat) : Nat :=
  history.foldl (fun j op => op.place j) j

/-- No operation of a history is on the context that stands at `j` before it. -/
def Spares : List Operation → Nat → Prop
  | [], _ => True
  | op :: more, j => op.subject ≠ j ∧ Spares more (op.place j)

theorem Counted.after_spared (h : family.Counted) {history : List Operation} {j : Nat}
    (hj : j < family.contexts.length) (hspares : Spares history j) :
    (family.after transport clock history).contexts[placeAfter history j]? =
        family.contexts[j]? ∧
      (family.after transport clock history).registry = family.registry := by
  induction history generalizing family j with
  | nil => exact ⟨rfl, rfl⟩
  | cons op more ih =>
      obtain ⟨hcontext, hregistry⟩ := h.perform_spared transport clock hj hspares.1
      have hplace : op.place j < (family.perform transport clock op).2.contexts.length := by
        rw [List.getElem?_eq_getElem hj] at hcontext
        exact (List.getElem?_eq_some_iff.mp hcontext).1
      obtain ⟨hcontexts, hregistries⟩ := ih (h.perform transport clock op) hplace hspares.2
      exact ⟨hcontexts.trans hcontext, hregistries.trans hregistry⟩

/-- A resource is registered if there is no other context. -/
theorem Counted.owners_eq_one_iff (h : family.Counted) {i : Nat}
    (hi : i < family.contexts.length) :
    family.owners = 1 ↔ ∀ j < family.contexts.length, j = i := by
  have howners : family.owners = family.contexts.length := h
  constructor
  · intro hone j hj
    omega
  · intro hall
    by_cases hsecond : 1 < family.contexts.length
    · have hzero := hall 0 (by omega)
      have hone := hall 1 hsecond
      omega
    · omega

end Family

open Family in
theorem contexts_are_isolated (transport : Transport) (clock : Clock) (registry : Registry)
    (context : Context) (world : World) (history : List Operation) :
    let family := (alone registry context world).after transport clock history
    (∀ op, op.subject < family.contexts.length → ∀ j < family.contexts.length, op.subject ≠ j →
      (family.perform transport clock op).2.contexts[op.place j]? = family.contexts[j]? ∧
        (family.perform transport clock op).2.registry = family.registry) ∧
    (∀ i < family.contexts.length,
      (family.perform transport clock (.copy i)).2.contexts =
          family.contexts ++ [{ bindings := .empty, response := none }] ∧
        (family.perform transport clock (.copy i)).2.registry = family.registry) ∧
    (∀ i < family.contexts.length, ∀ r,
      ((family.perform transport clock (.register i r)).1 = .ok () ↔
        ∀ j < family.contexts.length, j = i) ∧
      ((family.perform transport clock (.register i r)).1 = .ok () →
        (family.perform transport clock (.register i r)).2 =
          { family with registry := (family.registry.insert r).2 }) ∧
      ((family.perform transport clock (.register i r)).1 ≠ .ok () →
        family.perform transport clock (.register i r) = (.error .registryShared, family))) ∧
    ∀ j < family.contexts.length, ∀ more, Spares more j →
      (family.after transport clock more).contexts[placeAfter more j]? = family.contexts[j]? ∧
      (family.after transport clock more).registry = family.registry ∧
      ((family.after transport clock more).contexts.length = 1 → ∀ r,
        ((family.after transport clock more).perform transport clock (.register 0 r)).1 =
          .ok ()) := by
  intro family
  have hcounted : family.Counted :=
    (counted_alone registry context world).after transport clock history
  refine ⟨?_, ?_, ?_, ?_⟩
  · intro op _ j hj hother
    exact hcounted.perform_spared transport clock hj hother
  · intro i hi
    have hlive : (Operation.copy i).subject < family.contexts.length := hi
    rw [perform_live transport clock hlive]
    exact ⟨rfl, rfl⟩
  · intro i hi r
    have hlive : (Operation.register i r).subject < family.contexts.length := hi
    rw [perform_live transport clock hlive, apply_register, ← hcounted.owners_eq_one_iff hi]
    by_cases hone : family.owners = 1 <;> simp [hone]
  · intro j hj more hspares
    obtain ⟨hcontext, hregistry⟩ := hcounted.after_spared transport clock hj hspares
    refine ⟨hcontext, hregistry, ?_⟩
    intro hlength r
    have hlive : (Operation.register 0 r).subject <
        (family.after transport clock more).contexts.length := hlength ▸ Nat.zero_lt_one
    have hone : (family.after transport clock more).owners = 1 :=
      (hcounted.after transport clock more).trans hlength
    rw [perform_live transport clock hlive, apply_register, if_pos hone]

end HttpSuite
