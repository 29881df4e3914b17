import HttpSuite.Resource.Basic

/-!
The tables in which resources are kept: their keys in the order in which they were first
registered, the resources by key, and the resources by id. Registering a resource under a key
that is taken puts it in the place of the one that held it, whose id is then forgotten.
-/

namespace HttpSuite

/-- Values by name. A name has at most one value, and names have no order. -/
structure Table (α : Type) where
  entries : List (String × α)
  distinct : (entries.map Prod.fst).Nodup

namespace Table

variable {α : Type}

def empty : Table α :=
  ⟨[], List.nodup_nil⟩

def get? (t : Table α) (name : String) : Option α :=
  (t.entries.find? fun e => e.1 == name).map Prod.snd

def size (t : Table α) : Nat :=
  t.entries.length

def erase (t : Table α) (name : String) : Table α where
  entries := t.entries.filter fun e => e.1 != name
  distinct := t.distinct.sublist (List.filter_sublist.map Prod.fst)

def set (t : Table α) (name : String) (value : α) : Table α where
  entries := (name, value) :: (t.erase name).entries
  distinct := by
    refine List.nodup_cons.mpr ⟨?_, (t.erase name).distinct⟩
    intro h
    obtain ⟨e, he, hname⟩ := List.mem_map.mp h
    have hother := (List.mem_filter.mp he).2
    simp [hname] at hother

end Table

namespace Registry

/-- The containers of a registry. -/
structure Tables where
  order : List String
  byKey : Table Resource
  byId : Table Resource

namespace Tables

def empty : Tables :=
  { order := [], byKey := .empty, byId := .empty }

/-- Registers a resource and gives the one that it replaces, if any. The id is entered before
that of the replaced resource is taken out. -/
def insert (t : Tables) (r : Resource) : Option Resource × Tables :=
  let byId := t.byId.set r.id r
  let byKey := t.byKey.set r.reference r
  match t.byKey.get? r.reference with
  | some old => (some old, { t with byKey, byId := byId.erase old.id })
  | none => (none, { order := t.order ++ [r.reference], byKey, byId })

/-- The resource that holds a key. -/
def get? (t : Tables) (key : String) : Option Resource :=
  t.byKey.get? key

/-- The registered resource with an id. -/
def getById? (t : Tables) (id : String) : Option Resource :=
  t.byId.get? id

/-- The keys in registration order, each with the resource that holds it. -/
def items (t : Tables) : List (String × Resource) :=
  t.order.filterMap fun key => (t.get? key).map fun r => (key, r)

def size (t : Tables) : Nat :=
  t.byKey.size

def isEmpty (t : Tables) : Bool :=
  t.byKey.entries.isEmpty

end Tables
end Registry
end HttpSuite
