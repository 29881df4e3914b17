import HttpSuite.Proofs.Linking
import HttpSuite.Proofs.Sharing
import HttpSuite.Proofs.Tables

/-!
The life of a link. While resources are registered, replaced and dropped and contexts come and go,
a link points at the resource that its first successful resolution found. Later resolutions leave
it as it is, whatever they find, and once that resource is not registered any more the link leads
nowhere for good.
-/

namespace HttpSuite

/-- The same resource, whichever of its links are resolved. -/
def Resource.SameAs (r s : Resource) : Prop :=
  r.id = s.id ∧ r.block = s.block

namespace Resource.SameAs

variable {r s t : Resource}

theorem refl (r : Resource) : r.SameAs r :=
  ⟨rfl, rfl⟩

theorem symm (h : r.SameAs s) : s.SameAs r :=
  ⟨h.1.symm, h.2.symm⟩

theorem trans (h : r.SameAs s) (hs : s.SameAs t) : r.SameAs t :=
  ⟨h.1.trans hs.1, h.2.trans hs.2⟩

theorem reference_eq (h : r.SameAs s) : r.reference = s.reference :=
  congrArg Block.reference h.2

theorem handle_eq (h : r.SameAs s) : r.handle = s.handle := by
  simp only [Resource.handle, h.reference_eq, h.1]

end Resource.SameAs

theorem Resource.link_same (registry : Registry) (bindings : Bindings) (r : Resource) :
    (r.link registry bindings).2.SameAs r := by
  simp only [link]
  split
  · split <;> exact ⟨rfl, rfl⟩
  · exact ⟨rfl, rfl⟩
  · exact SameAs.refl r

theorem Registry.linkEach_same (registry : Registry) (bindings : Bindings)
    (resources : List Resource) :
    List.Forall₂ Resource.SameAs (registry.linkEach bindings resources).2 resources := by
  induction resources with
  | nil => exact .nil
  | cons r more ih =>
      have hr := Resource.link_same registry bindings r
      simp only [linkEach]
      split
      · next hlink =>
          rw [hlink] at hr
          exact .cons hr (List.forall₂_same.mpr fun r _ => Resource.SameAs.refl r)
      · next hlink =>
          rw [hlink] at hr
          exact .cons hr ih

/-- What the registry `n` can become while resources are registered: its keys stay distinct, and
all that it holds was there before or has been registered in it. -/
structure Registry.Becomes (n : Nat) (before : Registry) (added : List (Nat × Resource))
    (after : Registry) : Prop where
  keys : before.keys.Nodup → after.keys.Nodup
  held : ∀ r ∈ after.resources, ∃ origin, r.SameAs origin ∧
    (origin ∈ before.resources ∨ (n, origin) ∈ added)

namespace Registry.Becomes

variable {n : Nat} {a b c : Registry} {added more : List (Nat × Resource)}

theorem refl (registry : Registry) : Becomes n registry added registry where
  keys hkeys := hkeys
  held r hr := ⟨r, .refl r, .inl hr⟩

theorem trans (h : Becomes n a added b) (hmore : Becomes n b more c) :
    Becomes n a (added ++ more) c where
  keys hkeys := hmore.keys (h.keys hkeys)
  held r hr := by
    obtain ⟨origin, hsame, horigin⟩ := hmore.held r hr
    cases horigin with
    | inr hadded => exact ⟨origin, hsame, .inr (List.mem_append_right added hadded)⟩
    | inl hb =>
        obtain ⟨first, hfirst, hheld⟩ := h.held origin hb
        exact ⟨first, hsame.trans hfirst, hheld.imp_right (List.mem_append_left more)⟩

theorem empty (registry : Registry) : Becomes n registry added .empty where
  keys _ := List.nodup_nil
  held _ hr := absurd hr List.not_mem_nil

/-- Registers a resource that is the same as one that is there or is to be added. -/
theorem insert {registry : Registry} {r origin : Resource} (hsame : r.SameAs origin)
    (horigin : origin ∈ registry.resources ∨ (n, origin) ∈ added) :
    Becomes n registry added (registry.insert r).2 where
  keys hkeys := by
    rw [keys_insert]
    exact nodup_addNew hkeys r.reference
  held x hx := by
    cases mem_insert hx with
    | inl heq => exact ⟨origin, heq ▸ hsame, horigin⟩
    | inr hold => exact ⟨x, .refl x, .inl hold⟩

theorem link (registry : Registry) (bindings : Bindings) :
    Becomes n registry added (registry.link bindings).2 where
  keys hkeys := by
    have hsame := linkEach_same registry bindings registry.resources
    have heq : (registry.link bindings).2.keys = registry.keys := by
      have hreferences : List.Forall₂ (· = ·) (registry.link bindings).2.keys registry.keys :=
        List.rel_map (fun _ _ h => h.reference_eq) hsame
      exact List.forall₂_eq_eq_eq ▸ hreferences
    rwa [heq]
  held r hr := by
    obtain ⟨origin, horigin, hsame⟩ :=
      exists_of_mem_right (linkEach_same registry bindings registry.resources).flip hr
    exact ⟨origin, hsame, .inl horigin⟩

end Registry.Becomes

namespace Link

/-- A link and registries with their contexts. Every registry is made for itself. -/
structure State where
  families : Nat → Family
  link : Link

/-- Something done to contexts of the registry `n`, or a resolution of the link against one. -/
inductive Event where
  | operate (n : Nat) (op : Family.Operation)
  | linkOne (n i : Nat) (key : String)
  | linkAll (n i : Nat)
  | resolve (n i : Nat) (owner : String)

/-- What an event registers, and the number of the registry. -/
def Event.registered? : Event → Option (Nat × Resource)
  | .operate n (.register _ r) => some (n, r)
  | _ => none

/-- The resources that a history registers, with the numbers of their registries. -/
def registrations (history : List Event) : List (Nat × Resource) :=
  history.filterMap Event.registered?

namespace State

/-- Nothing is registered and the link is new. -/
def start (raw : String) : State where
  families _ := .empty
  link := .unresolved raw

/-- Puts a family in the place of another. -/
def become (s : State) (n : Nat) : Except Failure Unit × Family → Except Failure Unit × State
  | (result, family) => (result, { s with families := Function.update s.families n family })

/-- The resource that the link's text names at present in a context. -/
def find (s : State) (n i : Nat) : Except LinkFault Resource :=
  Link.find (s.families n).registry ((s.families n).context i).bindings s.link.raw

variable (transport : Transport) (clock : Clock)

def perform (s : State) : Event → Except Failure Unit × State
  | .operate n op => s.become n ((s.families n).perform transport clock op)
  | .linkOne n i key =>
    match (s.families n).registry.get? key with
    | none => (.ok (), s)
    | some r => s.become n ((s.families n).linkOne i r)
  | .linkAll n i => s.become n ((s.families n).linkAll i)
  | .resolve n i owner =>
    match s.link.resolve (s.families n).registry ((s.families n).context i).bindings owner with
    | .error e => (.error e, s)
    | .ok link => (.ok (), { s with link })

/-- What a history of events leaves. -/
def after (s : State) (history : List Event) : State :=
  history.foldl (fun s e => (s.perform transport clock e).2) s

/-- What an event finds for the link, and the number of the registry. -/
def found? (s : State) : Event → Option (Nat × Resource)
  | .resolve n i _ => (s.find n i).toOption.map (n, ·)
  | _ => none

/-- What the first successful resolution in a history finds. -/
def firstFound? (s : State) : List Event → Option (Nat × Resource)
  | [] => none
  | e :: more => (s.found? e).or (firstFound? (s.perform transport clock e).2 more)

/-- The link leads to a resource in one of the registries. -/
def Reaches (s : State) (r : Resource) : Prop :=
  ∃ n, s.link.target? (s.families n).registry = .ok r

end State

theorem registrations_cons (e : Event) (more : List Event) :
    registrations (e :: more) = registrations [e] ++ registrations more :=
  List.filterMap_append (l := [e])

end Link

open Link

variable (transport : Transport) (clock : Clock)

theorem Family.perform_becomes (family : Family) (n : Nat) (op : Operation) :
    Registry.Becomes n family.registry (registrations [.operate n op])
      (family.perform transport clock op).2.registry := by
  refine perform_cases transport clock
    (fun result => Registry.Becomes n family.registry _ result.2.registry) op ?_ (.refl _)
  intro _
  by_cases hlocal : op.IsLocal
  · obtain ⟨f, world, heq⟩ := family.apply_local transport clock hlocal
    rw [heq]
    exact .refl family.registry
  · cases op with
    | copy i => exact .refl family.registry
    | drop i =>
        simp only [apply, drop]
        split
        · split
          · exact .empty family.registry
          · exact .refl family.registry
        · exact .refl family.registry
    | register i r =>
        rw [apply_register]
        split
        · exact .insert (.refl r) (.inr List.mem_cons_self)
        · exact .refl family.registry
    | _ => exact absurd trivial hlocal

namespace Link.State

theorem become_becomes {s : State} {n : Nat} {result : Except Failure Unit × Family}
    {added : List (Nat × Resource)}
    (h : Registry.Becomes n (s.families n).registry added result.2.registry) (m : Nat) :
    Registry.Becomes m (s.families m).registry added
      ((s.become n result).2.families m).registry := by
  by_cases hm : m = n
  · subst hm
    simpa only [become, Function.update_self] using h
  · simp only [become, Function.update_of_ne hm]
    exact .refl _

theorem perform_becomes (s : State) (e : Event) (m : Nat) :
    Registry.Becomes m (s.families m).registry (registrations [e])
      ((s.perform transport clock e).2.families m).registry := by
  cases e with
  | operate n op =>
      exact become_becomes ((s.families n).perform_becomes transport clock n op) m
  | linkOne n i key =>
      simp only [perform]
      split
      · exact .refl _
      · next r hr =>
          refine become_becomes ?_ m
          exact .insert (Resource.link_same _ _ r) (.inl (Registry.get?_mem hr))
  | linkAll n i => exact become_becomes (.link _ _) m
  | resolve n i owner =>
      simp only [perform]
      split <;> exact .refl _

theorem after_becomes (s : State) (history : List Event) (m : Nat) :
    Registry.Becomes m (s.families m).registry (registrations history)
      ((s.after transport clock history).families m).registry := by
  induction history generalizing s with
  | nil => exact .refl _
  | cons e more ih =>
      rw [registrations_cons]
      exact (s.perform_becomes transport clock e m).trans (ih _)

theorem perform_resolve (s : State) (n i : Nat) (owner : String) :
    s.perform transport clock (.resolve n i owner) =
      match s.find n i with
      | .error fault => (.error (.unlinkable owner fault), s)
      | .ok r => (.ok (), { s with link.target := s.link.target.or (some r.handle) }) := by
  simp only [perform, resolve, find]
  cases Link.find (s.families n).registry ((s.families n).context i).bindings s.link.raw <;> rfl

/-- A link that has a target keeps it, and one without takes what is found. -/
theorem perform_link (s : State) (e : Event) :
    (s.perform transport clock e).2.link =
      { s.link with target := s.link.target.or ((s.found? e).map fun (_, r) => r.handle) } := by
  cases e with
  | operate n op => simp [perform, become, found?]
  | linkOne n i key =>
      simp only [perform, found?]
      split <;> simp [become]
  | linkAll n i => simp [perform, become, found?]
  | resolve n i owner =>
      rw [perform_resolve]
      simp only [found?]
      cases s.find n i <;> simp [Except.toOption]

theorem after_link (s : State) (history : List Event) :
    (s.after transport clock history).link =
      { s.link with
        target := s.link.target.or
          ((s.firstFound? transport clock history).map fun (_, r) => r.handle) } := by
  induction history generalizing s with
  | nil => simp [after, firstFound?]
  | cons e more ih =>
      refine (ih _).trans ?_
      rw [perform_link, firstFound?, Option.or_assoc, Option.map_or]

/-- A link that has a target stays as it is. -/
theorem after_linked {s : State} {handle : Handle} (h : s.link.target = some handle)
    (history : List Event) : (s.after transport clock history).link = s.link := by
  rw [after_link, h, Option.some_or, ← h]

theorem after_append (s : State) (history more : List Event) :
    s.after transport clock (history ++ more) =
      (s.after transport clock history).after transport clock more :=
  List.foldl_append

theorem firstFound?_append (s : State) (history more : List Event) :
    s.firstFound? transport clock (history ++ more) =
      (s.firstFound? transport clock history).or
        ((s.after transport clock history).firstFound? transport clock more) := by
  induction history generalizing s with
  | nil => rfl
  | cons e rest ih =>
      rw [List.cons_append, firstFound?, firstFound?, ih, Option.or_assoc]
      rfl

theorem found?_held {s : State} {e : Event} {n : Nat} {r : Resource}
    (h : s.found? e = some (n, r)) : r ∈ (s.families n).registry.resources := by
  cases e with
  | resolve n i owner =>
      simp only [found?, find] at h
      cases hfind : Link.find (s.families n).registry ((s.families n).context i).bindings
          s.link.raw with
      | error fault => simp [hfind, Except.toOption] at h
      | ok x =>
          obtain ⟨rfl, rfl⟩ : n = _ ∧ x = r := by simpa [hfind, Except.toOption] using h
          obtain ⟨key, _, hget, _⟩ := find_ok hfind
          exact Registry.get?_mem hget
  | _ => cases h

/-- What is found has been registered. -/
theorem firstFound?_registered {s : State} {history : List Event} {n : Nat} {r : Resource}
    (h : s.firstFound? transport clock history = some (n, r)) :
    ∃ origin, r.SameAs origin ∧
      (origin ∈ (s.families n).registry.resources ∨ (n, origin) ∈ registrations history) := by
  induction history generalizing s with
  | nil => cases h
  | cons e more ih =>
      rw [firstFound?] at h
      cases hfound : s.found? e with
      | some first =>
          obtain rfl : first = (n, r) := by simpa [hfound] using h
          exact ⟨r, .refl r, .inl (found?_held hfound)⟩
      | none =>
          rw [hfound, Option.none_or] at h
          obtain ⟨origin, hsame, horigin⟩ := ih h
          rw [registrations_cons]
          cases horigin with
          | inr hmore => exact ⟨origin, hsame, .inr (List.mem_append_right _ hmore)⟩
          | inl hheld =>
              obtain ⟨first, hfirst, hbefore⟩ :=
                (s.perform_becomes transport clock e n).held origin hheld
              exact ⟨first, hsame.trans hfirst,
                hbefore.imp_right (List.mem_append_left _)⟩

theorem target?_eq_ok_iff {registry : Registry} {l : Link} {r : Resource} :
    l.target? registry = .ok r ↔
      ∃ handle, l.target = some handle ∧ registry.holder? handle = some r := by
  rw [← Option.bind_eq_some_iff, target?]
  cases l.target.bind registry.holder? <;> simp

theorem target?_error {registry : Registry} {l : Link} {e : Failure}
    (h : l.target? registry = .error e) : e = .notLinked l.raw := by
  rw [target?] at h
  split at h
  · cases h
  · exact (Except.error.inj h).symm

/-- All that the registries hold after a history that starts with none has been registered. -/
theorem start_held {raw : String} {history : List Event} {n : Nat} {r : Resource}
    (h : r ∈ (((start raw).after transport clock history).families n).registry.resources) :
    ∃ origin, r.SameAs origin ∧ (n, origin) ∈ registrations history := by
  obtain ⟨origin, hsame, horigin⟩ :=
    ((start raw).after_becomes transport clock history n).held r h
  exact ⟨origin, hsame, horigin.resolve_left List.not_mem_nil⟩

theorem start_firstFound? {raw : String} {history : List Event} {n : Nat} {r : Resource}
    (h : (start raw).firstFound? transport clock history = some (n, r)) :
    ∃ origin, r.SameAs origin ∧ (n, origin) ∈ registrations history := by
  obtain ⟨origin, hsame, horigin⟩ := firstFound?_registered transport clock h
  exact ⟨origin, hsame, horigin.resolve_left List.not_mem_nil⟩

theorem start_target (raw : String) (history : List Event) :
    ((start raw).after transport clock history).link.target =
      ((start raw).firstFound? transport clock history).map fun (_, r) => r.handle := by
  rw [after_link]
  exact Option.none_or

/-- The ids of what a history registers are distinct, as ids that are drawn at random are. -/
def Fresh (history : List Event) : Prop :=
  ((registrations history).map fun (_, r) => r.id).Nodup

instance (history : List Event) : Decidable (Fresh history) :=
  inferInstanceAs (Decidable (List.Nodup _))

theorem Fresh.same {history : List Event} (h : Fresh history) {n m : Nat} {r s : Resource}
    (hr : (n, r) ∈ registrations history) (hs : (m, s) ∈ registrations history)
    (hid : r.id = s.id) : n = m ∧ r = s :=
  Prod.mk.inj (List.inj_on_of_nodup_map h hr hs hid)

theorem Fresh.of_append {history more : List Event} (h : Fresh (history ++ more)) :
    Fresh history := by
  rw [Fresh, registrations, List.filterMap_append, List.map_append] at h
  exact (List.nodup_append.mp h).1

/-- What is registered later has another id. -/
theorem Fresh.later_ne {history more : List Event} (h : Fresh (history ++ more)) {n m : Nat}
    {r s : Resource} (hr : (n, r) ∈ registrations history) (hs : (m, s) ∈ registrations more) :
    r.id ≠ s.id := by
  rw [Fresh, registrations, List.filterMap_append, List.map_append] at h
  exact (List.nodup_append.mp h).2.2 _ (List.mem_map_of_mem hr) _ (List.mem_map_of_mem hs)

/-- The link leads to what its first successful resolution found, while that is registered. -/
theorem reaches_iff {raw : String} {history : List Event} (hfresh : Fresh history)
    {r : Resource} :
    ((start raw).after transport clock history).Reaches r ↔
      ∃ n first, (start raw).firstFound? transport clock history = some (n, first) ∧
        r.SameAs first ∧
        (((start raw).after transport clock history).families n).registry.get? r.reference =
          some r := by
  constructor
  · intro hreaches
    obtain ⟨m, htarget⟩ := hreaches
    obtain ⟨handle, hhandle, hholder⟩ := target?_eq_ok_iff.mp htarget
    rw [start_target] at hhandle
    obtain ⟨⟨n, first⟩, hfirst, rfl⟩ := Option.map_eq_some_iff.mp hhandle
    obtain ⟨hget, hid⟩ := Registry.holder?_eq_some hholder
    obtain ⟨origin, hr, horigin⟩ := start_held transport clock (Registry.get?_mem hget)
    obtain ⟨found, hfound, hregistered⟩ := start_firstFound? transport clock hfirst
    have hids : origin.id = found.id := hr.1.symm.trans (hid.trans hfound.1)
    obtain ⟨rfl, rfl⟩ := hfresh.same horigin hregistered hids
    refine ⟨m, first, hfirst, hr.trans hfound.symm, ?_⟩
    rw [Registry.get?_reference hget]
    exact hget
  · intro hfirst
    obtain ⟨n, first, hfound, hsame, hget⟩ := hfirst
    refine ⟨n, target?_eq_ok_iff.mpr ⟨r.handle, ?_, Registry.holder?_handle hget⟩⟩
    rw [start_target, hfound, hsame.handle_eq]
    rfl

theorem firstFound?_more {raw : String} {history : List Event} (more : List Event) {n : Nat}
    {r : Resource} (h : (start raw).firstFound? transport clock history = some (n, r)) :
    (start raw).firstFound? transport clock (history ++ more) = some (n, r) := by
  rw [firstFound?_append, h, Option.some_or]

/-- A link that reached nothing although it had been resolved goes on to reach nothing. -/
theorem reaches_before {raw : String} {history more : List Event}
    (hfresh : Fresh (history ++ more)) {n : Nat} {first r : Resource}
    (hfirst : (start raw).firstFound? transport clock history = some (n, first))
    (hreaches : ((start raw).after transport clock (history ++ more)).Reaches r) :
    ∃ x, ((start raw).after transport clock history).Reaches x := by
  obtain ⟨m, found, hfound, hsame, hget⟩ := (reaches_iff transport clock hfresh).mp hreaches
  rw [firstFound?_more transport clock more hfirst] at hfound
  obtain ⟨rfl, rfl⟩ := Prod.mk.inj (Option.some.inj hfound)
  rw [after_append] at hget
  obtain ⟨origin, horigin, hbefore⟩ :=
    (after_becomes transport clock _ more n).held r (Registry.get?_mem hget)
  obtain ⟨registered, hregistered, hmem⟩ := start_firstFound? transport clock hfirst
  have horiginal : origin.SameAs first := horigin.symm.trans hsame
  cases hbefore with
  | inl hheld =>
      have hkeys := ((start raw).after_becomes transport clock history n).keys List.nodup_nil
      exact ⟨origin, (reaches_iff transport clock hfresh.of_append).mpr
        ⟨n, first, hfirst, horiginal, Registry.get?_of_mem hkeys hheld⟩⟩
  | inr hmore =>
      have hid : registered.id = origin.id := (horiginal.trans hregistered).1.symm
      exact absurd hid (hfresh.later_ne hmem hmore)

end Link.State

open Link.State in
/-- Where a link leads is decided for good by its first successful resolution. -/
theorem link_keeps_first_target (transport : Transport) (clock : Clock) (raw : String)
    (history more : List Event) (hfresh : Fresh (history ++ more)) :
    let s := (start raw).after transport clock history
    let later := s.after transport clock more
    let found := (start raw).firstFound? transport clock history
    s.link.raw = raw ∧ s.link.isLinked = found.isSome ∧
    (∀ n i owner,
      ((s.perform transport clock (.resolve n i owner)).1 = .ok () ↔
        (s.found? (.resolve n i owner)).isSome) ∧
      ((s.perform transport clock (.resolve n i owner)).1 ≠ .ok () →
        (s.perform transport clock (.resolve n i owner)).2 = s)) ∧
    (∀ r, s.Reaches r ↔ ∃ n first, found = some (n, first) ∧ r.SameAs first ∧
      (s.families n).registry.get? r.reference = some r) ∧
    ((∀ r, ¬ s.Reaches r) →
      ∀ n, s.link.target? (s.families n).registry = .error (.notLinked raw)) ∧
    (s.link.isLinked → later.link = s.link ∧
      (∀ r x, s.Reaches r → later.Reaches x → x.SameAs r) ∧
      ((∀ r, ¬ s.Reaches r) → ∀ r, ¬ later.Reaches r)) := by
  intro s later found
  have htarget : s.link.target = found.map fun (_, r) => r.handle :=
    start_target transport clock raw history
  have hraw : s.link.raw = raw :=
    congrArg Link.raw ((start raw).after_link transport clock history)
  have hreaches : ∀ r, s.Reaches r ↔ ∃ n first, found = some (n, first) ∧ r.SameAs first ∧
      (s.families n).registry.get? r.reference = some r :=
    fun r => reaches_iff transport clock hfresh.of_append
  refine ⟨hraw, ?_, ?_, hreaches, ?_, ?_⟩
  · rw [isLinked, htarget, Option.isSome_map]
  · intro n i owner
    rw [perform_resolve]
    simp only [found?]
    cases s.find n i <;> simp [Except.toOption]
  · intro hnone n
    rw [← hraw]
    cases htarget : s.link.target? (s.families n).registry with
    | ok r => exact absurd ⟨n, htarget⟩ (hnone r)
    | error e => exact congrArg Except.error (target?_error htarget)
  · intro hlinked
    rw [isLinked, htarget, Option.isSome_map] at hlinked
    obtain ⟨⟨n, first⟩, hfirst⟩ := Option.isSome_iff_exists.mp hlinked
    have hlater : later = (start raw).after transport clock (history ++ more) :=
      ((start raw).after_append transport clock history more).symm
    rw [hlater]
    refine ⟨?_, ?_, ?_⟩
    · rw [← hlater]
      exact after_linked transport clock (htarget.trans (congrArg _ hfirst)) more
    · intro r x hr hx
      obtain ⟨m, found', hfound, hsame, _⟩ := (hreaches r).mp hr
      obtain ⟨k, found'', hfound', hsame', _⟩ := (reaches_iff transport clock hfresh).mp hx
      rw [firstFound?_more transport clock more hfound] at hfound'
      obtain ⟨rfl, rfl⟩ := Prod.mk.inj (Option.some.inj hfound')
      exact hsame'.trans hsame.symm
    · intro hnone r hr
      obtain ⟨x, hx⟩ := reaches_before transport clock hfresh hfirst hr
      exact hnone x hx

open Link.State in
theorem sample_link_keeps_target :
    let transport := Transport.unconnected
    let clock : Clock := fun _ => ⟨0, 0⟩
    let a := Resource.bareTest "1" "a"
    let b := Resource.bareTest "2" "a"
    let linked : List Event := [.operate 0 (.register 0 a), .resolve 0 0 "owner"]
    let replaced : List Event := [.operate 0 (.register 0 b), .resolve 0 0 "owner"]
    let s := (start "$\x7bresource.http_test.a.ref\x7d").after transport clock linked
    let later := s.after transport clock replaced
    Fresh (linked ++ replaced) ∧ s.Reaches a ∧ later.find 0 0 = .ok b ∧
      later.link = s.link ∧ ¬ later.Reaches b := by
  intro transport clock a b linked replaced s later
  have hfresh : Fresh (linked ++ replaced) := by decide
  obtain ⟨_, hlinked, _, hreaches, _, hlater⟩ :=
    link_keeps_first_target transport clock "$\x7bresource.http_test.a.ref\x7d" linked replaced
      hfresh
  have hfound : (start "$\x7bresource.http_test.a.ref\x7d").firstFound? transport clock linked =
      some (0, a) := by decide +kernel
  have ha : s.Reaches a := (hreaches a).mpr ⟨0, a, hfound, .refl a, by decide +kernel⟩
  have hkept := hlater (hlinked.trans (congrArg Option.isSome hfound))
  refine ⟨hfresh, ha, by decide +kernel, hkept.1, ?_⟩
  intro hb
  exact absurd (hkept.2.1 a b ha hb).1 (by decide)

end HttpSuite
