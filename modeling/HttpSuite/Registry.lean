import HttpSuite.Resource.Basic
import HttpSuite.Template.Expand

/-!
Registered resources in the order in which their keys were first registered. A resource
registered under a key that is taken replaces the one that held it and keeps its place. A handle
leads to its resource only as long as that resource holds its key.
-/

namespace HttpSuite

structure Registry where
  resources : List Resource
  deriving DecidableEq

namespace Registry

def empty : Registry :=
  ⟨[]⟩

/-- The resource that holds a key. -/
def get? (registry : Registry) (key : String) : Option Resource :=
  registry.resources.find? fun r => r.reference == key

/-- The registered resource with an id. -/
def getById? (registry : Registry) (id : String) : Option Resource :=
  registry.resources.find? fun r => r.id == id

/-- Puts a resource in the place of the one that holds its key, or last; gives the one that was
there. -/
def place (r : Resource) : List Resource → Option Resource × List Resource
  | [] => (none, [r])
  | old :: rest =>
    if old.reference = r.reference then (some old, r :: rest)
    else
      let (replaced, rest) := place r rest
      (replaced, old :: rest)

/-- Registers a resource and gives the one that it replaces, if any. -/
def insert (registry : Registry) (r : Resource) : Option Resource × Registry :=
  let (replaced, resources) := place r registry.resources
  (replaced, ⟨resources⟩)

def size (registry : Registry) : Nat :=
  registry.resources.length

def isEmpty (registry : Registry) : Bool :=
  registry.resources.isEmpty

def keys (registry : Registry) : List String :=
  registry.resources.map Resource.reference

/-- The resource that a handle names, unless it has been replaced. -/
def holder? (registry : Registry) (handle : Handle) : Option Resource :=
  (registry.get? handle.key).filter fun r => r.id == handle.id

/-- What templates can name: the variables and the attributes of registered resources. -/
def scope (registry : Registry) (bindings : Bindings) : Template.Scope :=
  { bindings, attributes? := fun key => (registry.get? key).map Resource.attribute? }

end Registry
end HttpSuite
