import HttpSuite.Proofs.FirstOccurrence
import HttpSuite.Suite

/-!
What registration keeps. The keys of a registry that is filled from an empty one are distinct, so
a key leads to the only resource that has it. A property that holds of the registry at first and
of every resource that a block makes is carried through the registration of a document.
-/

namespace HttpSuite
namespace Registry

theorem place_keys (r : Resource) (resources : List Resource) :
    (place r resources).2.map Resource.reference =
      addNew (resources.map Resource.reference) r.reference := by
  induction resources with
  | nil => rfl
  | cons old rest ih =>
      by_cases hold : old.reference = r.reference
      · simp only [place, hold, if_true, List.map_cons, addNew_cons_self]
      · simp only [place, if_neg hold, List.map_cons, ih, addNew_cons_ne hold]

theorem keys_insert (registry : Registry) (r : Resource) :
    (registry.insert r).2.keys = addNew registry.keys r.reference :=
  place_keys r registry.resources

theorem mem_place {r x : Resource} {resources : List Resource}
    (h : x ∈ (place r resources).2) : x = r ∨ x ∈ resources := by
  induction resources with
  | nil => exact .inl (List.mem_singleton.mp h)
  | cons old rest ih =>
      simp only [place] at h
      split at h
      · rcases List.mem_cons.mp h with hx | hx
        · exact .inl hx
        · exact .inr (List.mem_cons_of_mem _ hx)
      · rcases List.mem_cons.mp h with hx | hx
        · exact .inr (hx ▸ List.mem_cons_self)
        · exact (ih hx).imp_right (List.mem_cons_of_mem _)

theorem mem_insert {registry : Registry} {r x : Resource}
    (h : x ∈ (registry.insert r).2.resources) : x = r ∨ x ∈ registry.resources :=
  mem_place h

theorem get?_mem {registry : Registry} {key : String} {r : Resource}
    (h : registry.get? key = some r) : r ∈ registry.resources :=
  List.mem_of_find?_eq_some h

theorem get?_reference {registry : Registry} {key : String} {r : Resource}
    (h : registry.get? key = some r) : r.reference = key := by
  have hkey := List.find?_some h
  exact beq_iff_eq.mp hkey

/-- A registered resource is found under its key. -/
theorem get?_of_mem {registry : Registry} {r : Resource} (hkeys : registry.keys.Nodup)
    (hr : r ∈ registry.resources) : registry.get? r.reference = some r := by
  cases h : registry.get? r.reference with
  | none =>
      have hnone := List.find?_eq_none.mp h r hr
      exact absurd (beq_self_eq_true _) hnone
  | some s =>
      have hsame := List.inj_on_of_nodup_map hkeys (get?_mem h) hr (get?_reference h)
      exact congrArg some hsame

theorem get?_eq_some_iff {registry : Registry} (hkeys : registry.keys.Nodup) {key : String}
    {r : Resource} :
    registry.get? key = some r ↔ r ∈ registry.resources ∧ r.reference = key := by
  constructor
  · intro h
    exact ⟨get?_mem h, get?_reference h⟩
  · rintro ⟨hr, rfl⟩
    exact get?_of_mem hkeys hr

/-- Where a resource stands does not matter to those who look for it by its key. -/
theorem get?_of_perm {registry other : Registry} (h : registry.resources.Perm other.resources)
    (hkeys : registry.keys.Nodup) : registry.get? = other.get? := by
  have hother : other.keys.Nodup := (h.map Resource.reference).nodup_iff.mp hkeys
  funext key
  apply Option.ext
  intro r
  rw [get?_eq_some_iff hkeys, get?_eq_some_iff hother, h.mem_iff]

theorem holder?_eq_some {registry : Registry} {handle : Handle} {r : Resource}
    (h : registry.holder? handle = some r) :
    registry.get? handle.key = some r ∧ r.id = handle.id := by
  obtain ⟨hget, hid⟩ := Option.filter_eq_some_iff.mp h
  exact ⟨hget, beq_iff_eq.mp hid⟩

/-- A handle leads to the resource that it was taken from. -/
theorem holder?_handle {registry : Registry} {key : String} {r : Resource}
    (h : registry.get? key = some r) : registry.holder? r.handle = some r := by
  have hkey := get?_reference h
  refine Option.filter_eq_some_iff.mpr ⟨?_, beq_self_eq_true _⟩
  simpa only [Resource.handle, hkey] using h

theorem place_find? (r : Resource) (key : String) (resources : List Resource) :
    (place r resources).2.find? (fun x => x.reference == key) =
      if r.reference = key then some r else resources.find? fun x => x.reference == key := by
  induction resources with
  | nil => by_cases hkey : r.reference = key <;> simp [place, hkey]
  | cons old rest ih =>
      by_cases hold : old.reference = r.reference
      · by_cases hkey : r.reference = key <;> simp [place, hold, hkey]
      · simp only [place, if_neg hold, List.find?_cons, ih]
        by_cases hkey : r.reference = key
        · have hother : (old.reference == key) = false := beq_eq_false_iff_ne.mpr (hkey ▸ hold)
          simp [hkey, hother]
        · simp [hkey]

theorem get?_insert (registry : Registry) (r : Resource) (key : String) :
    (registry.insert r).2.get? key = if r.reference = key then some r else registry.get? key :=
  place_find? r key registry.resources

/-- Registers resources in order. -/
def insertAll (registry : Registry) (rs : List Resource) : Registry :=
  rs.foldl (fun registry r => (registry.insert r).2) registry

theorem keys_insertAll (registry : Registry) (rs : List Resource) :
    (registry.insertAll rs).keys = (rs.map Resource.reference).foldl addNew registry.keys := by
  induction rs generalizing registry with
  | nil => rfl
  | cons r more ih =>
      rw [List.map_cons, List.foldl_cons, ← keys_insert]
      exact ih _

theorem get?_insertAll (registry : Registry) (rs : List Resource) (key : String) :
    (registry.insertAll rs).get? key =
      (rs.reverse.find? fun r => r.reference == key).or (registry.get? key) := by
  induction rs generalizing registry with
  | nil => rfl
  | cons r more ih =>
      refine (ih (registry.insert r).2).trans ?_
      rw [get?_insert, find?_reverse_cons, Option.or_assoc]
      by_cases hkey : r.reference = key <;> simp [hkey]

theorem filterMap_keys {rs : List Resource} {find : String → Option Resource}
    (h : ∀ r ∈ rs, find r.reference = some r) :
    (rs.map Resource.reference).filterMap find = rs := by
  rw [List.filterMap_map]
  exact (List.filterMap_congr h).trans List.filterMap_some

theorem filterMap_get? {registry : Registry} (h : registry.keys.Nodup) :
    registry.keys.filterMap registry.get? = registry.resources :=
  filterMap_keys fun _ hr => get?_of_mem h hr

/-- The last resource with each key, in the order in which the keys first occur. -/
def latest (rs : List Resource) : List Resource :=
  (distinct (rs.map Resource.reference)).filterMap fun key =>
    rs.reverse.find? fun r => r.reference == key

theorem keys_insertAll_empty (rs : List Resource) :
    (empty.insertAll rs).keys = distinct (rs.map Resource.reference) :=
  keys_insertAll empty rs

theorem resources_insertAll (rs : List Resource) :
    (empty.insertAll rs).resources = latest rs := by
  have hkeys := keys_insertAll_empty rs
  have hget : (empty.insertAll rs).get? = fun key =>
      rs.reverse.find? fun r => r.reference == key := by
    funext key
    rw [get?_insertAll]
    exact Option.or_none
  rw [← filterMap_get? (hkeys ▸ nodup_distinct _), hkeys, hget]
  rfl

theorem mem_of_mem_latest {rs : List Resource} {r : Resource} (h : r ∈ latest rs) : r ∈ rs := by
  obtain ⟨key, _, hfind⟩ := List.mem_filterMap.mp h
  exact List.mem_reverse.mp (List.mem_of_find?_eq_some hfind)

/-- With distinct keys nothing is replaced. -/
theorem latest_of_nodup {rs : List Resource} (h : (rs.map Resource.reference).Nodup) :
    latest rs = rs := by
  -- The last resource with a key is the one that a registry in reverse order has under it.
  have hreverse : (⟨rs.reverse⟩ : Registry).keys.Nodup := by
    rw [keys, List.map_reverse]
    exact List.nodup_reverse.mpr h
  rw [latest, distinct_of_nodup h]
  exact filterMap_keys fun r hr => get?_of_mem hreverse (List.mem_reverse.mpr hr)

end Registry

/-- What holds of a registry and goes on to hold with each resource that a block makes holds of
the registry of a document. -/
theorem Suite.register_induction (holds : Registry → Prop)
    (hinsert : ∀ registry id block r, holds registry → Resource.ofBlock id block = .ok r →
      holds (registry.insert r).2)
    {start registry : Registry} {blocks : List (String × Block)} (hstart : holds start)
    (h : register start blocks = .ok registry) : holds registry := by
  induction blocks generalizing start with
  | nil =>
      cases h
      exact hstart
  | cons entry more ih =>
      simp only [register] at h
      split at h
      · exact ih hstart h
      · split at h
        · split at h
          · cases h
          · next r hr => exact ih (hinsert start _ _ r hstart hr) h
        · cases h

theorem Suite.register_nodup_keys {registry : Registry} {blocks : List (String × Block)}
    (h : register .empty blocks = .ok registry) : registry.keys.Nodup := by
  have hempty : Registry.empty.keys.Nodup := List.nodup_nil
  refine register_induction (fun registry => registry.keys.Nodup) ?_ hempty h
  intro registry _ _ r hkeys _
  rw [Registry.keys_insert]
  exact nodup_addNew hkeys r.reference

end HttpSuite
