import HttpSuite.Suite

/-!
Contexts that share one registry and one world. A copy of a context sees the same resources but
has variables and a response of its own. The registry counts its owners: every context owns it
until it is dropped, a resource is registered only while there is a single owner, and without one
nothing stays registered. Contexts are counted from zero in the order in which they were made.
-/

namespace HttpSuite

structure Family where
  registry : Registry
  owners : Nat
  contexts : List Context
  world : World
  deriving DecidableEq

namespace Family

/-- A context that has a registry for itself. -/
def alone (registry : Registry) (context : Context) (world : World) : Family :=
  { registry, owners := 1, contexts := [context], world }

/-- One blank context over an empty registry. -/
def empty : Family :=
  alone .empty .blank .initial

/-- The context that loading a suite gives. -/
def ofSuite (suite : Suite) : Family :=
  alone suite.registry suite.loaded .initial

/-- Adds a context that shares the registry, with no variables and no response. -/
def copy (family : Family) : Family :=
  { family with contexts := family.contexts ++ [.blank], owners := family.owners + 1 }

/-- Drops a context, and the registry with its last owner. -/
def drop (family : Family) (i : Nat) : Family :=
  if i < family.contexts.length then
    { family with
      registry := if family.owners = 1 then .empty else family.registry
      owners := family.owners - 1
      contexts := family.contexts.eraseIdx i }
  else family

def context (family : Family) (i : Nat) : Context :=
  family.contexts[i]?.getD .blank

/-- Changes one context. -/
def update (family : Family) (i : Nat) (f : Context → Context) : Family :=
  { family with contexts := family.contexts.modify i f }

def setVariable (family : Family) (i : Nat) (name value : String) : Family :=
  family.update i fun c => { c with bindings := c.bindings.set name value }

def setResponse (family : Family) (i : Nat) (response : Option Response) : Family :=
  family.update i fun c => { c with response }

/-- Registers a resource, unless the registry has several owners. -/
def register (family : Family) (r : Resource) : Except Failure Family :=
  if family.owners = 1 then .ok { family with registry := (family.registry.insert r).2 }
  else .error .registryShared

/-- What templates can name in a context. -/
def scope (family : Family) (i : Nat) : Template.Scope :=
  family.registry.scope (family.context i).bindings

/-- Links one resource with the variables of a context. -/
def linkOne (family : Family) (i : Nat) (r : Resource) : Except Failure Unit × Family :=
  let (result, registry) := family.registry.linkOne (family.context i).bindings r
  (result, { family with registry })

/-- Links all resources with the variables of a context. -/
def linkAll (family : Family) (i : Nat) : Except Failure Unit × Family :=
  let (result, registry) := family.registry.link (family.context i).bindings
  (result, { family with registry })

/-- Executes a resource on a context. -/
def exec (family : Family) (transport : Transport) (clock : Clock) (i : Nat) (r : Resource) :
    Except Failure Unit × Family :=
  let env : Environment := { registry := family.registry, transport, clock }
  let (outcome, state) := env.exec r { family.context i, family.world with }
  (outcome, { family.update i (fun _ => state.toContext) with world := state.toWorld })

end Family
end HttpSuite
