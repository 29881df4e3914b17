import HttpSuite.Failure
import HttpSuite.Registry

/-!
Resolving links. The text of a link is a template whose value names a key between `${` and
`.ref}`; the link then points at the resource registered under the key. A link that points at
a resource keeps pointing at it when it is resolved again. Linking a resource stops at its
first link that cannot be resolved, and linking a registry at the first such resource; what was
linked before stays linked.
-/

namespace HttpSuite

open HttpSuite.Text

/-- The key inside the value of a link. -/
def referenceKey? (value : String) : Option String :=
  match afterLead? ['$', '{'] value.toList with
  | none => none
  | some rest =>
    match beforeTail? ".ref\x7d".toList rest with
    | none | some [] => none
    | some key => some (String.ofList key)

/-- The resource that a link's text names at present. -/
def Link.find (registry : Registry) (bindings : Bindings) (raw : String) :
    Except LinkFault Resource :=
  match Template.expand (some (registry.scope bindings)) raw with
  | .error fault => .error (.unresolved raw fault)
  | .ok value =>
    match referenceKey? value with
    | none => .error (.invalid raw)
    | some key =>
      match registry.get? key with
      | none => .error (.notFound key)
      | some r => .ok r

/-- Resolves a link of `owner`. -/
def Link.resolve (registry : Registry) (bindings : Bindings) (owner : String) (l : Link) :
    Except Failure Link :=
  match Link.find registry bindings l.raw with
  | .error fault => .error (.unlinkable owner fault)
  | .ok r => .ok { l with target := l.target.or (some r.handle) }

/-- The resource that a link points at. -/
def Link.target? (registry : Registry) (l : Link) : Except Failure Resource :=
  match l.target.bind registry.holder? with
  | some r => .ok r
  | none => .error (.notLinked l.raw)

/-- Resolves links in order up to the first that fails; the others stay as they are. -/
def Link.resolveAll (registry : Registry) (bindings : Bindings) (owner : String) :
    List Link → Except Failure Unit × List Link
  | [] => (.ok (), [])
  | l :: more =>
    match l.resolve registry bindings owner with
    | .error e => (.error e, l :: more)
    | .ok linked =>
      let (result, rest) := resolveAll registry bindings owner more
      (result, linked :: rest)

/-- Resolves the links of a resource; assertions come before captures. -/
def Resource.link (registry : Registry) (bindings : Bindings) (r : Resource) :
    Except Failure Unit × Resource :=
  match r.kind with
  | .step s =>
    match Link.resolveAll registry bindings r.reference s.assertions with
    | (.error e, assertions) => (.error e, { r with kind := .step { s with assertions } })
    | (.ok (), assertions) =>
      let (result, links) := Link.resolveAll registry bindings r.reference s.captures
      (result, { r with kind := .step { s with assertions, captures := links } })
  | .test steps =>
    let (result, steps) := Link.resolveAll registry bindings r.reference steps
    (result, { r with kind := .test steps })
  | _ => (.ok (), r)

namespace Registry

/-- Links one registered resource. -/
def linkOne (registry : Registry) (bindings : Bindings) (r : Resource) :
    Except Failure Unit × Registry :=
  let (result, linked) := r.link registry bindings
  (result, (registry.insert linked).2)

/-- Links resources in order up to the first that fails. -/
def linkEach (registry : Registry) (bindings : Bindings) :
    List Resource → Except Failure Unit × List Resource
  | [] => (.ok (), [])
  | r :: more =>
    match r.link registry bindings with
    | (.error e, linked) => (.error e, linked :: more)
    | (.ok (), linked) =>
      let (result, rest) := linkEach registry bindings more
      (result, linked :: rest)

/-- Links all registered resources in registration order. Where a link leads depends on keys and
attributes alone, which linking leaves as they are. -/
def link (registry : Registry) (bindings : Bindings) : Except Failure Unit × Registry :=
  let (result, resources) := linkEach registry bindings registry.resources
  (result, ⟨resources⟩)

end Registry
end HttpSuite
