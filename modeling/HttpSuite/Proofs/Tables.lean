import HttpSuite.Proofs.Registry
import HttpSuite.Registry.Tables
import Mathlib.Data.List.Induction
import Mathlib.Data.List.Perm.Basic

/-!
A registry after any registrations. Its containers keep in step: a key stands where it was first
registered and leads to the resource that was registered last under it, and an id is known
exactly as long as its resource holds its key. So the containers answer as the list of resources
does that a suite is run with.
-/

namespace HttpSuite

namespace Table

variable {α : Type}

def names (t : Table α) : List String :=
  t.entries.map Prod.fst

theorem get?_erase (t : Table α) (name other : String) :
    (t.erase name).get? other = if name = other then none else t.get? other := by
  simp only [get?, erase, List.find?_filter]
  by_cases h : name = other
  · subst h
    simp
  · have hkeep : ∀ e : String × α,
        decide ((e.1 != name) = true ∧ (e.1 == other) = true) = (e.1 == other) := by
      intro e
      by_cases he : e.1 = other
      · simp [he, Ne.symm h]
      · simp [he]
    simp only [h, if_false, hkeep]

theorem get?_set (t : Table α) (name other : String) (value : α) :
    (t.set name value).get? other = if name = other then some value else t.get? other := by
  by_cases h : name = other
  · simp [get?, set, h]
  · have herase := t.get?_erase name other
    simp only [h, if_false, get?] at herase ⊢
    simpa [set, h] using herase

theorem mem_names_iff {t : Table α} {name : String} :
    name ∈ t.names ↔ ∃ value, t.get? name = some value := by
  simp only [names, get?, List.mem_map, Option.map_eq_some_iff]
  constructor
  · intro h
    obtain ⟨e, he, hname⟩ := h
    cases hfind : t.entries.find? fun e => e.1 == name with
    | some found => exact ⟨found.2, found, rfl, rfl⟩
    | none => exact absurd (beq_iff_eq.mpr hname) (List.find?_eq_none.mp hfind e he)
  · intro h
    obtain ⟨_, e, hfind, _⟩ := h
    have hname := List.find?_some hfind
    exact ⟨e, List.mem_of_find?_eq_some hfind, beq_iff_eq.mp hname⟩

end Table

namespace Registry

/-- The last of some resources with a key. -/
def lastOf? (rs : List Resource) (key : String) : Option Resource :=
  rs.reverse.find? fun r => r.reference == key

theorem lastOf?_concat (rs : List Resource) (r : Resource) (key : String) :
    lastOf? (rs ++ [r]) key = if r.reference = key then some r else lastOf? rs key := by
  simp only [lastOf?, find?_reverse_concat, beq_iff_eq]

/-- What is last under its own key once another resource follows. -/
theorem lastOf?_concat_eq_some_iff {rs : List Resource} {r x : Resource} :
    lastOf? (rs ++ [r]) x.reference = some x ↔
      x = r ∨ r.reference ≠ x.reference ∧ lastOf? rs x.reference = some x := by
  rw [lastOf?_concat]
  by_cases hkey : r.reference = x.reference
  · simp [hkey, eq_comm]
  · have hne : x ≠ r := fun h => hkey (congrArg Resource.reference h.symm)
    simp [hkey, hne]

theorem lastOf?_mem {rs : List Resource} {key : String} {r : Resource}
    (h : lastOf? rs key = some r) : r ∈ rs :=
  List.mem_reverse.mp (List.mem_of_find?_eq_some h)

theorem lastOf?_reference {rs : List Resource} {key : String} {r : Resource}
    (h : lastOf? rs key = some r) : r.reference = key := by
  have hkey := List.find?_some h
  exact beq_iff_eq.mp hkey

theorem lastOf?_eq_none_iff {rs : List Resource} {key : String} :
    lastOf? rs key = none ↔ key ∉ rs.map Resource.reference := by
  simp [lastOf?]

namespace Tables

/-- Registers resources in order. -/
def insertAll (t : Tables) (rs : List Resource) : Tables :=
  rs.foldl (fun t r => (t.insert r).2) t

theorem insertAll_concat (t : Tables) (rs : List Resource) (r : Resource) :
    t.insertAll (rs ++ [r]) = ((t.insertAll rs).insert r).2 := by
  simp only [insertAll, List.foldl_append, List.foldl_cons, List.foldl_nil]

/-- The containers hold what is left of some resources that were registered in order. -/
structure Keeps (t : Tables) (rs : List Resource) : Prop where
  order : t.order = distinct (rs.map Resource.reference)
  byKey : ∀ key, t.byKey.get? key = lastOf? rs key
  byId : ∀ id r, t.byId.get? id = some r ↔ r.id = id ∧ lastOf? rs r.reference = some r

theorem keeps_empty : empty.Keeps [] where
  order := rfl
  byKey _ := rfl
  byId id r := by simp [empty, Table.empty, Table.get?, lastOf?]

variable {t : Tables} {rs : List Resource}

theorem Keeps.insert_order (h : t.Keeps rs) (r : Resource) :
    (t.insert r).2.order = addNew t.order r.reference := by
  have hmem : r.reference ∈ t.order ↔ t.byKey.get? r.reference ≠ none := by
    rw [h.order, h.byKey, mem_distinct, Ne, lastOf?_eq_none_iff, not_not]
  simp only [insert]
  split
  · next old hold => rw [addNew_of_mem (hmem.mpr (by simp [hold]))]
  · next hnone => rw [addNew_of_not_mem (by simp [hmem, hnone])]

theorem insert_byKey (t : Tables) (r : Resource) :
    (t.insert r).2.byKey = t.byKey.set r.reference r := by
  simp only [insert]
  split <;> rfl

theorem insert_replaced (t : Tables) (r : Resource) :
    (t.insert r).1 = t.byKey.get? r.reference := by
  simp only [insert]
  split <;> next h => rw [h]

/-- The id of the new resource is entered, and that of the resource it replaces is taken out. -/
theorem insert_byId_get? (t : Tables) (r : Resource) (id : String) :
    (t.insert r).2.byId.get? id =
      if (t.byKey.get? r.reference).map Resource.id = some id then none
      else if r.id = id then some r else t.byId.get? id := by
  simp only [insert]
  split
  · next old hold =>
      simp only [hold, Table.get?_erase, Table.get?_set, Option.map_some, Option.some.injEq]
  · next hnone => simp [hnone, Table.get?_set]

theorem ids_concat {r : Resource} (h : ((rs ++ [r]).map Resource.id).Nodup) :
    (rs.map Resource.id).Nodup ∧ ∀ x ∈ rs, x.id ≠ r.id := by
  rw [List.map_append, List.nodup_append] at h
  obtain ⟨hrs, _, hapart⟩ := h
  refine ⟨hrs, ?_⟩
  intro x hx
  exact hapart x.id (List.mem_map_of_mem hx) r.id (List.mem_singleton.mpr rfl)

theorem Keeps.insert_byId (h : t.Keeps rs) {r : Resource}
    (hids : ((rs ++ [r]).map Resource.id).Nodup) (id : String) (x : Resource) :
    (t.insert r).2.byId.get? id = some x ↔
      x.id = id ∧ lastOf? (rs ++ [r]) x.reference = some x := by
  obtain ⟨hrs, hfresh⟩ := ids_concat hids
  rw [insert_byId_get?, h.byKey, lastOf?_concat_eq_some_iff]
  by_cases hnew : r.id = id
  · -- The new resource is known by its id, which no earlier one has.
    have hold : (lastOf? rs r.reference).map Resource.id ≠ some id := by
      intro hmap
      obtain ⟨old, hlast, hid⟩ := Option.map_eq_some_iff.mp hmap
      exact hfresh old (lastOf?_mem hlast) (hid.trans hnew.symm)
    rw [if_neg hold, if_pos hnew]
    constructor
    · intro hx
      cases hx
      exact ⟨hnew, .inl rfl⟩
    · intro ⟨hid, hx⟩
      cases hx with
      | inl heq => rw [heq]
      | inr hlast => exact absurd (hid.trans hnew.symm) (hfresh x (lastOf?_mem hlast.2))
  · have hother : x.id = id → x ≠ r := fun hid hx => hnew (hx ▸ hid)
    by_cases hold : (lastOf? rs r.reference).map Resource.id = some id
    · -- The replaced resource is forgotten, and no other has its id.
      obtain ⟨old, hlast, hid⟩ := Option.map_eq_some_iff.mp hold
      rw [if_pos hold]
      constructor
      · intro hx
        cases hx
      · intro ⟨hxid, hx⟩
        obtain ⟨hkey, hx⟩ := hx.resolve_left (hother hxid)
        have hsame := List.inj_on_of_nodup_map hrs (lastOf?_mem hx) (lastOf?_mem hlast)
          (hxid.trans hid.symm)
        exact absurd (hsame ▸ lastOf?_reference hlast).symm hkey
    · -- What is known by another id stays as it is.
      rw [if_neg hold, if_neg hnew, h.byId]
      refine and_congr_right fun hid => ?_
      constructor
      · intro hlast
        refine .inr ⟨?_, hlast⟩
        intro hkey
        rw [hkey, hlast, Option.map_some, hid] at hold
        exact hold rfl
      · intro hx
        exact (hx.resolve_left (hother hid)).2

theorem Keeps.insert (h : t.Keeps rs) {r : Resource}
    (hids : ((rs ++ [r]).map Resource.id).Nodup) : (t.insert r).2.Keeps (rs ++ [r]) where
  order := by rw [h.insert_order, h.order, List.map_append, List.map_singleton, distinct_concat]
  byKey key := by rw [insert_byKey, Table.get?_set, h.byKey, lastOf?_concat]
  byId := h.insert_byId hids

theorem keeps_insertAll (hids : (rs.map Resource.id).Nodup) : (empty.insertAll rs).Keeps rs := by
  induction rs using List.reverseRecOn with
  | nil => exact keeps_empty
  | append_singleton rs r ih =>
      rw [insertAll_concat]
      exact (ih (ids_concat hids).1).insert hids

theorem Keeps.mem_items (h : t.Keeps rs) {key : String} {r : Resource} :
    (key, r) ∈ t.items ↔ lastOf? rs key = some r := by
  simp only [items, get?, h.byKey, List.mem_filterMap, Option.map_eq_some_iff, Prod.mk.injEq]
  constructor
  · intro ⟨_, _, _, hlast, hkey, hr⟩
    rwa [← hkey, ← hr]
  · intro hlast
    have hmem : key ∈ rs.map Resource.reference :=
      List.mem_map.mpr ⟨r, lastOf?_mem hlast, lastOf?_reference hlast⟩
    refine ⟨key, ?_, r, hlast, rfl, rfl⟩
    rwa [h.order, mem_distinct]

theorem Keeps.items_keys (h : t.Keeps rs) : t.items.map Prod.fst = t.order := by
  rw [items, List.map_filterMap]
  refine (List.filterMap_congr ?_).trans List.filterMap_some
  intro key hkey
  rw [h.order, mem_distinct] at hkey
  cases hlast : lastOf? rs key with
  | none => exact absurd hkey (lastOf?_eq_none_iff.mp hlast)
  | some r => simp [get?, h.byKey, hlast]

theorem Keeps.items_resources (h : t.Keeps rs) : t.items.map Prod.snd = latest rs := by
  rw [items, List.map_filterMap, latest, ← h.order]
  refine List.filterMap_congr ?_
  intro key _
  rw [get?, h.byKey, Option.map_map]
  exact Option.map_id_apply

/-- The table by key has an entry for each key in the order, and no other. -/
theorem Keeps.size_eq (h : t.Keeps rs) : t.size = t.items.length := by
  have hdistinct : t.byKey.names.Nodup := t.byKey.distinct
  have hnames : t.byKey.names.Perm t.order := by
    rw [h.order, List.perm_ext_iff_of_nodup hdistinct (nodup_distinct _)]
    intro key
    rw [Table.mem_names_iff, mem_distinct, h.byKey, ← Option.isSome_iff_exists,
      Option.isSome_iff_ne_none, Ne, lastOf?_eq_none_iff, not_not]
  have hlength := hnames.length_eq
  rw [← h.items_keys] at hlength
  simpa [Table.names, size, Table.size] using hlength

theorem isEmpty_iff (t : Tables) : t.isEmpty = true ↔ t.size = 0 := by
  simp [isEmpty, size, Table.size]

end Tables

theorem place_replaced (r : Resource) (resources : List Resource) :
    (place r resources).1 = resources.find? fun x => x.reference == r.reference := by
  induction resources with
  | nil => rfl
  | cons old rest ih =>
      by_cases hold : old.reference = r.reference
      · simp [place, hold]
      · simp [place, hold, ih]

theorem getById?_eq_some_iff {registry : Registry} {rs : List Resource}
    (hrs : ∀ r ∈ registry.resources, r ∈ rs) (hids : (rs.map Resource.id).Nodup) {id : String}
    {r : Resource} :
    registry.getById? id = some r ↔ r.id = id ∧ r ∈ registry.resources := by
  constructor
  · intro h
    have hid := List.find?_some h
    exact ⟨beq_iff_eq.mp hid, List.mem_of_find?_eq_some h⟩
  · intro ⟨hid, hr⟩
    cases h : registry.getById? id with
    | none => exact absurd (beq_iff_eq.mpr hid) (List.find?_eq_none.mp h r hr)
    | some s =>
        have hs := List.mem_of_find?_eq_some h
        have hsid := List.find?_some h
        have hsame := List.inj_on_of_nodup_map hids (hrs s hs) (hrs r hr)
          ((beq_iff_eq.mp hsid).trans hid.symm)
        rw [hsame]

theorem mem_latest_iff {rs : List Resource} {r : Resource} :
    r ∈ latest rs ↔ lastOf? rs r.reference = some r := by
  rw [latest, List.mem_filterMap]
  constructor
  · intro hmem
    obtain ⟨key, _, hlast⟩ := hmem
    have hkey := lastOf?_reference hlast
    rwa [hkey]
  · intro hlast
    refine ⟨r.reference, ?_, hlast⟩
    rw [mem_distinct]
    exact List.mem_map_of_mem (lastOf?_mem hlast)

theorem get?_insertAll_empty (rs : List Resource) (key : String) :
    (empty.insertAll rs).get? key = lastOf? rs key := by
  rw [get?_insertAll]
  exact Option.or_none

theorem getById?_insertAll_empty {rs : List Resource} (hids : (rs.map Resource.id).Nodup)
    {id : String} {r : Resource} :
    (empty.insertAll rs).getById? id = some r ↔
      r.id = id ∧ lastOf? rs r.reference = some r := by
  have hresources := resources_insertAll rs
  rw [getById?_eq_some_iff (fun x hx => mem_of_mem_latest (hresources ▸ hx)) hids, hresources,
    mem_latest_iff]

end Registry

theorem registry_keeps_last_registered (rs : List Resource) (hids : (rs.map Resource.id).Nodup) :
    let t := Registry.Tables.empty.insertAll rs
    let registry := Registry.empty.insertAll rs
    (t.items.map Prod.fst = distinct (rs.map Resource.reference) ∧
      (t.items.map Prod.fst).Nodup ∧
      ∀ key r, (key, r) ∈ t.items ↔ Registry.lastOf? rs key = some r) ∧
    (t.size = t.items.length ∧ (t.isEmpty = true ↔ t.size = 0)) ∧
    (∀ key, t.get? key = Registry.lastOf? rs key) ∧
    (∀ id r, t.getById? id = some r ↔ r.id = id ∧ t.get? r.reference = some r) ∧
    (∀ r ∈ rs, t.get? r.reference ≠ some r → t.getById? r.id = none) ∧
    (∀ r, (t.insert r).1 = t.get? r.reference) ∧
    registry.resources = t.items.map Prod.snd ∧ registry.keys = t.items.map Prod.fst ∧
    registry.size = t.size ∧ registry.isEmpty = t.isEmpty ∧ registry.get? = t.get? ∧
    registry.getById? = t.getById? ∧ ∀ r, (registry.insert r).1 = (t.insert r).1 := by
  intro t registry
  have hkeeps : t.Keeps rs := Registry.Tables.keeps_insertAll hids
  have hkeys : t.items.map Prod.fst = distinct (rs.map Resource.reference) := by
    rw [hkeeps.items_keys, hkeeps.order]
  have hresources : registry.resources = t.items.map Prod.snd := by
    rw [hkeeps.items_resources]
    exact Registry.resources_insertAll rs
  have hget : registry.get? = t.get? := by
    funext key
    exact (Registry.get?_insertAll_empty rs key).trans (hkeeps.byKey key).symm
  have hbyId : ∀ id r, t.getById? id = some r ↔ r.id = id ∧ t.get? r.reference = some r := by
    intro id r
    rw [Registry.Tables.get?, hkeeps.byKey]
    exact hkeeps.byId id r
  have hsize : registry.size = t.size := by
    rw [hkeeps.size_eq, Registry.size, hresources, List.length_map]
  refine ⟨⟨hkeys, ?_, fun key r => hkeeps.mem_items⟩, ⟨hkeeps.size_eq, t.isEmpty_iff⟩,
    hkeeps.byKey, hbyId, ?_, ?_, hresources, ?_, hsize, ?_, hget, ?_, ?_⟩
  · rw [hkeys]
    exact nodup_distinct _
  · intro r hr hreplaced
    cases hfound : t.getById? r.id with
    | none => rfl
    | some x =>
        obtain ⟨hid, hx⟩ := (hbyId r.id x).mp hfound
        have hmem : x ∈ rs := Registry.lastOf?_mem ((hkeeps.byKey x.reference).symm.trans hx)
        rw [List.inj_on_of_nodup_map hids hmem hr hid] at hx
        exact absurd hx hreplaced
  · exact t.insert_replaced
  · rw [hkeys]
    exact Registry.keys_insertAll_empty rs
  · rw [Bool.eq_iff_iff, t.isEmpty_iff, ← hsize]
    simp [Registry.isEmpty, Registry.size]
  · funext id
    apply Option.ext
    intro r
    rw [Registry.getById?_insertAll_empty hids]
    exact (hkeeps.byId id r).symm
  · intro r
    rw [t.insert_replaced]
    exact (Registry.place_replaced r registry.resources).trans (congrFun hget r.reference)

/-- A resource whose block has no fields. -/
def Resource.bare (id driver name : String) (kind : Kind) : Resource where
  id
  block := ⟨⟨"resource", ⟨0, 0⟩⟩, ⟨driver, ⟨0, 0⟩⟩, ⟨name, ⟨0, 0⟩⟩, [], ⟨0, 0⟩⟩
  kind

def Resource.bareTest (id name : String) : Resource :=
  .bare id "http_test" name (.test [])

theorem sample_registry_keeps_last :
    let a := Resource.bareTest "1" "a"
    let b := Resource.bareTest "2" "b"
    let c := Resource.bareTest "3" "a"
    let t := Registry.Tables.empty.insertAll [a, b, c]
    ([a, b, c].map Resource.id).Nodup ∧ t.items.map Prod.fst = [a.reference, b.reference] ∧
      t.get? a.reference = some c ∧ t.getById? a.id = none ∧ t.getById? c.id = some c ∧
      (t.insert a).1 = some c := by
  intro a b c t
  have hids : ([a, b, c].map Resource.id).Nodup := by decide
  obtain ⟨⟨hkeys, _, _⟩, _, hget, hbyId, hreplaced, hinsert, _⟩ :=
    registry_keeps_last_registered [a, b, c] hids
  have hlast : t.get? a.reference = some c := (hget a.reference).trans (by decide +kernel)
  have hkey : c.reference = a.reference := by decide +kernel
  refine ⟨hids, hkeys.trans (by decide +kernel), hlast, ?_, ?_, (hinsert a).trans hlast⟩
  · refine hreplaced a List.mem_cons_self ?_
    rw [hlast]
    decide
  · exact (hbyId c.id c).mpr ⟨rfl, hkey ▸ hlast⟩

end HttpSuite
