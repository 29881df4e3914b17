import HttpSuite.Proofs.Globals
import HttpSuite.Proofs.Registry
import Mathlib.Data.List.Forall2

/-!
Links of a loaded suite. Blocks make resources whose links point nowhere, and linking resolves
every one of them in the registry as it was filled. Keys, identifiers and attributes are not
touched by linking, so each link of the suite leads to the resource that the suite holds under
the key in the link's text.
-/

namespace HttpSuite

open HttpSuite.Text

/-- No link of the kind points at a resource. -/
def Kind.Unlinked : Kind → Prop
  | .step s => ∀ l ∈ s.assertions ++ s.captures, l.target = none
  | .test steps => ∀ l ∈ steps, l.target = none
  | .assertion _ | .capture _ => True

theorem Link.unresolved_target {texts : List String} {l : Link}
    (h : l ∈ texts.map Link.unresolved) : l.target = none := by
  obtain ⟨raw, _, rfl⟩ := List.mem_map.mp h
  rfl

/-- What each driver makes of fields. -/
theorem Kind.ofFields_ok {driver : Driver} {fields : List Field} {kind : Kind}
    (h : ofFields driver fields = .ok kind) :
    (driver = .httpStep ∧ ∃ s, kind = .step s ∧ kind.Unlinked) ∨
      (driver = .httpTest ∧ ∃ steps, kind = .test steps ∧ kind.Unlinked) ∨
      driver ≠ .httpTest ∧ ((∃ a, kind = .assertion a) ∨ ∃ c, kind = .capture c) := by
  cases driver with
  | httpStep =>
      simp only [ofFields, stepOf, bind, Except.bind, pure, Except.pure] at h
      repeat' split at h
      all_goals cases h
      refine .inl ⟨rfl, _, rfl, fun l hl => ?_⟩
      rcases List.mem_append.mp hl with hl | hl
      · exact Link.unresolved_target hl
      · exact Link.unresolved_target hl
  | httpTest =>
      cases h
      exact .inr (.inl ⟨rfl, _, rfl, fun l hl => Link.unresolved_target hl⟩)
  | _ =>
      simp only [ofFields, assertionOf, statusCodeOf, bodyOf, responseVariableOf,
        systemVariableOf, outletHeaderOf, outletJsonFieldOf, bind, Except.bind, pure,
        Except.pure, throw, throwThe, MonadExceptOf.throw] at h
      repeat' split at h
      all_goals cases h <;> simp

theorem Kind.ofFields_unlinked {driver : Driver} {fields : List Field} {kind : Kind}
    (h : ofFields driver fields = .ok kind) : kind.Unlinked := by
  rcases ofFields_ok h with ⟨_, _, _, hlinks⟩ | ⟨_, _, _, hlinks⟩ | ⟨_, ⟨_, rfl⟩ | ⟨_, rfl⟩⟩
  · exact hlinks
  · exact hlinks
  · trivial
  · trivial

theorem Kind.build_ok_iff {driver : Driver} {fields : List Field} {kind : Kind} :
    build driver fields = .ok kind ↔
      driver.schema.check fields = .ok () ∧ ofFields driver fields = .ok kind := by
  rw [build]
  cases driver.schema.check fields with
  | error _ => simp
  | ok _ => simp

theorem Kind.build_ok {driver : Driver} {fields : List Field} {kind : Kind}
    (h : build driver fields = .ok kind) : ofFields driver fields = .ok kind :=
  (build_ok_iff.mp h).2

theorem Resource.build_ok_iff {driver : Driver} {id : String} {block : Block} {r : Resource} :
    build driver id block = .ok r ↔
      r.id = id ∧ r.block = block ∧ Kind.build driver block.fields = .ok r.kind := by
  rw [build]
  constructor
  · intro h
    split at h
    · cases h
    · next kind hkind =>
        cases h
        exact ⟨rfl, rfl, hkind⟩
  · intro h
    obtain ⟨rfl, rfl, hkind⟩ := h
    rw [hkind]

/-- The parts of a built resource. -/
theorem Resource.ofBlock_ok {id : String} {block : Block} {r : Resource}
    (h : ofBlock id block = .ok r) :
    r.id = id ∧ r.block = block ∧
      ∃ driver, Driver.ofName? block.driver.text = some driver ∧
        Kind.build driver block.fields = .ok r.kind := by
  simp only [ofBlock] at h
  split at h
  · cases h
  · next driver hdriver =>
      obtain ⟨hid, hblock, hkind⟩ := build_ok_iff.mp h
      exact ⟨hid, hblock, driver, hdriver, hkind⟩

theorem Resource.ofBlock_unlinked {id : String} {block : Block} {r : Resource}
    (h : ofBlock id block = .ok r) : ∀ l ∈ r.links, l.target = none := by
  obtain ⟨_, _, driver, _, hkind⟩ := ofBlock_ok h
  have hunlinked := Kind.ofFields_unlinked (Kind.build_ok hkind)
  simp only [links]
  split <;> simp_all [Kind.Unlinked]

theorem Suite.register_unlinked {registry : Registry} {blocks : List (String × Block)}
    (h : register .empty blocks = .ok registry) :
    ∀ r ∈ registry.resources, ∀ l ∈ r.links, l.target = none := by
  refine register_induction
    (fun registry => ∀ r ∈ registry.resources, ∀ l ∈ r.links, l.target = none) ?_ ?_ h
  · intro registry id block r hregistry hr s hs
    rcases Registry.mem_insert hs with rfl | hs
    · exact Resource.ofBlock_unlinked hr
    · exact hregistry s hs
  · intro r hr
    exact absurd hr List.not_mem_nil

theorem Link.resolve_ok {registry : Registry} {bindings : Bindings} {owner : String}
    {l linked : Link} (h : l.resolve registry bindings owner = .ok linked) :
    ∃ r, find registry bindings l.raw = .ok r ∧
      linked = { l with target := l.target.or (some r.handle) } := by
  simp only [resolve] at h
  split at h
  · cases h
  · next r hr =>
      cases h
      exact ⟨r, hr, rfl⟩

theorem Link.resolveAll_ok {registry : Registry} {bindings : Bindings} {owner : String}
    {ls linked : List Link} (h : resolveAll registry bindings owner ls = (.ok (), linked)) :
    List.Forall₂ (fun l l' => l.resolve registry bindings owner = .ok l') ls linked := by
  induction ls generalizing linked with
  | nil =>
      cases h
      exact .nil
  | cons l more ih =>
      simp only [resolveAll] at h
      split at h
      · cases h
      · next hl =>
          obtain ⟨hresult, rfl⟩ := Prod.mk.inj h
          exact .cons hl (ih (Prod.ext hresult rfl))

namespace Resource

/-- Linking a resource resolves each of its links and changes nothing else. -/
theorem link_ok {registry : Registry} {bindings : Bindings} {r linked : Resource}
    (h : r.link registry bindings = (.ok (), linked)) :
    linked.id = r.id ∧ linked.block = r.block ∧
      List.Forall₂ (fun l l' => l.resolve registry bindings r.reference = .ok l')
        r.links linked.links := by
  simp only [link] at h
  split at h
  · next s hkind =>
      split at h
      · cases h
      · next hassertions =>
          obtain ⟨hresult, rfl⟩ := Prod.mk.inj h
          refine ⟨rfl, rfl, ?_⟩
          simp only [links, hkind]
          exact List.rel_append (Link.resolveAll_ok hassertions)
            (Link.resolveAll_ok (Prod.ext hresult rfl))
  · next steps hkind =>
      obtain ⟨hresult, rfl⟩ := Prod.mk.inj h
      refine ⟨rfl, rfl, ?_⟩
      simp only [links, hkind]
      exact Link.resolveAll_ok (Prod.ext hresult rfl)
  · next hstep htest =>
      cases h
      refine ⟨rfl, rfl, ?_⟩
      unfold links
      split
      · next s hkind => exact absurd hkind (hstep s)
      · next steps hkind => exact absurd hkind (htest steps)
      · exact .nil

theorem link_reference {registry : Registry} {bindings : Bindings} {r linked : Resource}
    (h : r.link registry bindings = (.ok (), linked)) : linked.reference = r.reference :=
  congrArg Block.reference (link_ok h).2.1

theorem link_attribute? {registry : Registry} {bindings : Bindings} {r linked : Resource}
    (h : r.link registry bindings = (.ok (), linked)) : linked.attribute? = r.attribute? := by
  obtain ⟨hid, hblock, _⟩ := link_ok h
  funext name
  simp only [attribute?, reference, hid, hblock]

end Resource

theorem find?_rel {α β : Type} {related : α → β → Prop} {p : α → Bool} {q : β → Bool}
    (hpq : ∀ x y, related x y → p x = q y) {xs : List α} {ys : List β}
    (h : List.Forall₂ related xs ys) : Option.Rel related (xs.find? p) (ys.find? q) := by
  induction h with
  | nil => exact .none
  | @cons x y xs ys hxy _ ih =>
      rw [List.find?_cons, List.find?_cons, hpq x y hxy]
      split
      · exact .some hxy
      · exact ih

theorem exists_of_mem_right {α β : Type} {related : α → β → Prop} {xs : List α} {ys : List β}
    (h : List.Forall₂ related xs ys) {y : β} (hy : y ∈ ys) : ∃ x ∈ xs, related x y := by
  induction h with
  | nil => exact absurd hy List.not_mem_nil
  | @cons x z xs zs hxz _ ih =>
      rcases List.mem_cons.mp hy with rfl | hy
      · exact ⟨x, List.mem_cons_self, hxz⟩
      · obtain ⟨x', hx', hrel⟩ := ih hy
        exact ⟨x', List.mem_cons_of_mem x hx', hrel⟩

namespace Registry

theorem linkEach_ok {registry : Registry} {bindings : Bindings} {resources linked : List Resource}
    (h : linkEach registry bindings resources = (.ok (), linked)) :
    List.Forall₂ (fun r r' => r.link registry bindings = (.ok (), r')) resources linked := by
  induction resources generalizing linked with
  | nil =>
      cases h
      exact .nil
  | cons r more ih =>
      simp only [linkEach] at h
      split at h
      · cases h
      · next hr =>
          obtain ⟨hresult, rfl⟩ := Prod.mk.inj h
          exact .cons hr (ih (Prod.ext hresult rfl))

variable {registry linked : Registry} {bindings : Bindings}

theorem link_ok (h : registry.link bindings = (.ok (), linked)) :
    List.Forall₂ (fun r r' => r.link registry bindings = (.ok (), r'))
      registry.resources linked.resources := by
  obtain ⟨hresult, rfl⟩ := Prod.mk.inj h
  exact linkEach_ok (Prod.ext hresult rfl)

theorem link_get? (h : registry.link bindings = (.ok (), linked)) (key : String) :
    Option.Rel (fun r r' => r.link registry bindings = (.ok (), r'))
      (registry.get? key) (linked.get? key) := by
  refine find?_rel ?_ (link_ok h)
  intro r r' hr
  rw [Resource.link_reference hr]

theorem link_keys (h : registry.link bindings = (.ok (), linked)) :
    linked.keys = registry.keys := by
  have hkeys : List.Forall₂ (· = ·) linked.keys registry.keys := by
    refine List.rel_map ?_ (List.Forall₂.flip (link_ok h))
    intro r' r hr
    exact Resource.link_reference hr
  exact List.forall₂_eq_eq_eq ▸ hkeys

/-- Templates have the same values before and after linking. -/
theorem link_scope (h : registry.link bindings = (.ok (), linked)) (b : Bindings) :
    linked.scope b = registry.scope b := by
  have hattributes : (fun key => (linked.get? key).map Resource.attribute?) =
      fun key => (registry.get? key).map Resource.attribute? := by
    funext key
    have hrel := link_get? h key
    generalize registry.get? key = before at hrel ⊢
    generalize linked.get? key = after at hrel ⊢
    cases hrel with
    | none => rfl
    | some hr => exact congrArg some (Resource.link_attribute? hr)
  exact congrArg (Template.Scope.mk b) hattributes

/-- What a registered resource is linked to is registered under the same key. -/
theorem link_get?_some (h : registry.link bindings = (.ok (), linked)) {key : String}
    {r : Resource} (hr : registry.get? key = some r) :
    ∃ r', linked.get? key = some r' ∧ r.link registry bindings = (.ok (), r') := by
  have hrel := link_get? h key
  rw [hr] at hrel
  generalize linked.get? key = after at hrel ⊢
  cases hrel with
  | some hlink => exact ⟨_, rfl, hlink⟩

end Registry

theorem referenceKey?_eq_some_iff {value key : String} :
    referenceKey? value = some key ↔ key ≠ "" ∧ value = "$\x7b" ++ key ++ ".ref\x7d" := by
  simp only [referenceKey?]
  constructor
  · intro h
    split at h
    · cases h
    · next rest hlead =>
        split at h
        · cases h
        · cases h
        · next cs hne htail =>
            cases h
            rw [afterLead?_eq_some_iff] at hlead
            rw [beforeTail?_eq_some_iff] at htail
            refine ⟨fun hempty => hne (String.ofList_eq_empty_iff.mp hempty), ?_⟩
            rw [← String.toList_inj, hlead, htail]
            simp
  · rintro ⟨hne, rfl⟩
    have hlead : afterLead? ['$', '{'] ("$\x7b" ++ key ++ ".ref\x7d").toList =
        some (key.toList ++ ".ref\x7d".toList) :=
      afterLead?_eq_some_iff.mpr (by simp)
    have htail : beforeTail? ".ref\x7d".toList (key.toList ++ ".ref\x7d".toList) =
        some key.toList :=
      beforeTail?_eq_some_iff.mpr rfl
    simp only [hlead, htail]
    cases hkey : key.toList with
    | nil => exact absurd (String.toList_eq_nil_iff.mp hkey) hne
    | cons c cs =>
        show some (String.ofList (c :: cs)) = some key
        rw [← hkey, String.ofList_toList]

theorem Link.find_ok {registry : Registry} {bindings : Bindings} {raw : String} {r : Resource}
    (h : find registry bindings raw = .ok r) :
    ∃ key, key ≠ "" ∧ registry.get? key = some r ∧
      Template.expand (some (registry.scope bindings)) raw =
        .ok ("$\x7b" ++ key ++ ".ref\x7d") := by
  simp only [find] at h
  split at h
  · cases h
  · next value hvalue =>
      split at h
      · cases h
      · next key hkey =>
          obtain ⟨hne, rfl⟩ := referenceKey?_eq_some_iff.mp hkey
          split at h
          · cases h
          · next hget =>
              cases h
              exact ⟨key, hne, hget, hvalue⟩

/-- A link that points nowhere before a registry is linked leads afterwards to the resource
registered under the key in its text. -/
theorem Link.resolve_target? {registry linked : Registry} {bindings : Bindings} {owner : String}
    {l l' : Link} (hlink : registry.link bindings = (.ok (), linked)) (hl : l.target = none)
    (h : l.resolve registry bindings owner = .ok l') :
    ∃ key target, key ≠ "" ∧
      Template.expand (some (linked.scope bindings)) l'.raw =
        .ok ("$\x7b" ++ key ++ ".ref\x7d") ∧
      linked.get? key = some target ∧ l'.target = some target.handle := by
  obtain ⟨r, hfind, rfl⟩ := resolve_ok h
  obtain ⟨key, hne, hget, hvalue⟩ := find_ok hfind
  obtain ⟨r', hget', hr⟩ := Registry.link_get?_some hlink hget
  refine ⟨key, r', hne, ?_, hget', ?_⟩
  · rw [Registry.link_scope hlink]
    exact hvalue
  · have hhandle : r'.handle = r.handle := by
      simp only [Resource.handle, Resource.link_reference hr, (Resource.link_ok hr).1]
    rw [hhandle, hl, Option.none_or]

namespace Suite

variable {config : Config} {ids : Nat → String} {document : Document} {suite : Suite}

/-- The stages of loading a suite. -/
theorem load_ok (h : load config ids document = .ok suite) :
    config.globals document = .ok suite.globals ∧
      ∃ registry, register .empty (withIds ids document) = .ok registry ∧
        registry.link suite.globals = (.ok (), suite.registry) := by
  simp only [load] at h
  split at h
  · cases h
  · next globals hglobals =>
      split at h
      · cases h
      · next registry hregister =>
          split at h
          · cases h
          · next linked hlink =>
              cases h
              rw [Context.seed_blank globals (config.globals_nodup document globals hglobals)]
                at hlink
              exact ⟨hglobals, registry, hregister, hlink⟩

theorem load_nodup_keys (h : load config ids document = .ok suite) :
    suite.registry.keys.Nodup := by
  obtain ⟨_, registry, hregister, hlink⟩ := load_ok h
  rw [Registry.link_keys hlink]
  exact register_nodup_keys hregister

/-- Every link of a loaded suite leads to the resource registered under the key in its text. -/
theorem load_target? (h : load config ids document = .ok suite) {r : Resource}
    (hr : r ∈ suite.registry.resources) {l : Link} (hl : l ∈ r.links) :
    ∃ key target, key ≠ "" ∧
      Template.expand (some (suite.registry.scope suite.globals)) l.raw =
        .ok ("$\x7b" ++ key ++ ".ref\x7d") ∧
      suite.registry.get? key = some target ∧ l.isLinked = true ∧
      l.target? suite.registry = .ok target := by
  obtain ⟨_, registry, hregister, hlink⟩ := load_ok h
  obtain ⟨s, hs, hrs⟩ := exists_of_mem_right (Registry.link_ok hlink) hr
  obtain ⟨_, _, hlinks⟩ := Resource.link_ok hrs
  obtain ⟨l', hl', hresolve⟩ := exists_of_mem_right hlinks hl
  have hunlinked := register_unlinked hregister s hs l' hl'
  obtain ⟨key, target, hne, hvalue, hget, htarget⟩ :=
    Link.resolve_target? hlink hunlinked hresolve
  refine ⟨key, target, hne, hvalue, hget, ?_, ?_⟩
  · rw [Link.isLinked, htarget]
    rfl
  · rw [Link.target?, htarget, Option.bind_some, Registry.holder?_handle hget]

end Suite
end HttpSuite
