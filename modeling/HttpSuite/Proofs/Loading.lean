import HttpSuite.Proofs.FirstFault
import HttpSuite.Proofs.Linking

/-!
When a document loads, and what is reported if it does not. Loading passes over the variable
blocks, then over all blocks, then over the links of the resources that are left when later
blocks have replaced earlier ones. Each pass ends at its first fault, and a pass begins only if
the one before it has found none.
-/

namespace HttpSuite

/-- Some field gives a list as the default of a variable. -/
def Block.ListsDefault (b : Block) : Prop :=
  ∃ f ∈ b.fields, f.name.name = "default" ∧ ∃ items span, f.value = .list items span

/-- What is wrong with a variable block. -/
def Block.DefaultFault (b : Block) (e : Failure) : Prop :=
  (b.id.name = "variable" ∧ b.ListsDefault) ∧ e = .invalid b.reference (.wantsText "default")

/-- A block makes a resource. -/
def Block.Accepted (b : Block) : Prop :=
  b.id.name = "resource" ∧ ∃ driver : Driver, driver.name = b.driver.text ∧
    ∃ kind, Kind.build driver b.fields = .ok kind

/-- A block that declares no variable makes no resource, and why. -/
inductive Block.Refused (b : Block) : Failure → Prop
  | block (hvariable : b.id.name ≠ "variable") (hresource : b.id.name ≠ "resource") :
      Refused b (.unknownBlock b.id.name b.reference)
  | driver (hresource : b.id.name = "resource") (hdriver : ∀ d : Driver, d.name ≠ b.driver.text) :
      Refused b (.unknownDriver b.driver.text b.reference)
  | fields (hresource : b.id.name = "resource") {d : Driver} (hdriver : d.name = b.driver.text)
      {fault : FieldFault} (hfault : Kind.build d b.fields = .error fault) :
      Refused b (.invalid b.reference fault)

/-- A link has no resource to point at. The failure names the owner of the link. -/
def LinkFails (registry : Registry) (bindings : Bindings) (link : String × Link)
    (e : Failure) : Prop :=
  ∃ fault, Link.find registry bindings link.2.raw = .error fault ∧ e = .unlinkable link.1 fault

/-- The links of a resource with the key of their owner. -/
def Resource.ownedLinks (r : Resource) : List (String × Link) :=
  r.links.map fun l => (r.reference, l)

/-- The resources that blocks make, those among them that are replaced later. -/
def Suite.made (blocks : List (String × Block)) : List Resource :=
  blocks.filterMap fun entry =>
    if entry.2.id.name = "resource" then (Resource.ofBlock entry.1 entry.2).toOption else none

/-- The registry of a document before it is linked. -/
def Suite.survivors (ids : Nat → String) (document : Document) : Registry :=
  ⟨Registry.latest (made (withIds ids document))⟩

theorem Schema.check_default_error_iff {fields : List Field} {fault : FieldFault} :
    check [("default", .text)] fields = .error fault ↔
      (∃ f ∈ fields, f.name.name = "default" ∧ ∃ items span, f.value = .list items span) ∧
        fault = .wantsText "default" := by
  induction fields with
  | nil => simp [check]
  | cons f more ih =>
      by_cases hname : f.name.name = "default"
      · cases hvalue : f.value with
        | text literal => simp [check, checkShape, hname, hvalue, ih]
        | list items span => simp [check, checkShape, hname, hvalue, eq_comm]
      · have hother : (f.name.name == "default") = false := beq_eq_false_iff_ne.mpr hname
        simp [check, List.lookup_cons, hother, hname, ih]

theorem variableDefault_error_iff {b : Block} {e : Failure} :
    variableDefault b = .error e ↔
      b.ListsDefault ∧ e = .invalid b.reference (.wantsText "default") := by
  cases hcheck : Schema.check [("default", .text)] b.fields with
  | error fault =>
      obtain ⟨hfields, rfl⟩ := Schema.check_default_error_iff.mp hcheck
      have hlists : b.ListsDefault := hfields
      simp [variableDefault, hcheck, hlists, eq_comm]
  | ok _ =>
      have hlists : ¬ b.ListsDefault := by
        intro hlists
        rw [Schema.check_default_error_iff.mpr ⟨hlists, rfl⟩] at hcheck
        cases hcheck
      simp [variableDefault, hcheck, hlists]

/-- The first pass looks at the variable blocks. -/
theorem declareGlobals_error_iff {override? : String → Option String} {start : Bindings}
    {document : Document} {e : Failure} :
    declareGlobals override? start document = .error e ↔
      FirstFault Block.DefaultFault document e := by
  induction document generalizing start with
  | nil => simp [declareGlobals, FirstFault.not_nil]
  | cons b more ih =>
      simp only [declareGlobals, firstFault_cons, Block.DefaultFault]
      by_cases hvariable : b.id.name = "variable"
      · simp only [hvariable, true_and, if_true, ← variableDefault_error_iff]
        cases hdefault : variableDefault b with
        | error e' => simp
        | ok default => simp [ih]
      · simp [hvariable, ih]

theorem declareGlobals_isOk_iff {override? : String → Option String} {start : Bindings}
    {document : Document} :
    (∃ globals, declareGlobals override? start document = .ok globals) ↔
      Faultless Block.DefaultFault document := by
  have hfirst : ∀ e, declareGlobals override? start document = .error e ↔
      FirstFault Block.DefaultFault document e := fun _ => declareGlobals_error_iff
  simp only [faultless_iff, ← hfirst]
  cases declareGlobals override? start document <;> simp

theorem Config.globals_error_iff {config : Config} {document : Document} {e : Failure} :
    config.globals document = .error e ↔ FirstFault Block.DefaultFault document e :=
  declareGlobals_error_iff

/-- Looking up names in a list that finds everything under its own name. -/
theorem find?_name_eq_some_iff {α : Type} {name : α → String} {all : List α}
    (hall : ∀ a, (all.find? fun b => name b == name a) = some a) {a : α} {text : String} :
    (all.find? fun b => name b == text) = some a ↔ name a = text := by
  constructor
  · intro h
    have hname := List.find?_some h
    exact beq_iff_eq.mp hname
  · rintro rfl
    exact hall a

theorem Driver.ofName?_eq_some_iff {name : String} {d : Driver} :
    ofName? name = some d ↔ d.name = name :=
  find?_name_eq_some_iff fun d => by cases d <;> rfl

theorem Driver.ofName?_eq_none_iff {name : String} :
    ofName? name = none ↔ ∀ d : Driver, d.name ≠ name := by
  simp only [Option.eq_none_iff_forall_ne_some, ne_eq, ofName?_eq_some_iff]

theorem Block.ne_resource {b : Block} (h : b.id.name = "variable") :
    b.id.name ≠ "resource" := by
  rw [h]
  decide

theorem Block.refused_of_variable {b : Block} (h : b.id.name = "variable") (e : Failure) :
    ¬ b.Refused e := by
  have hother := ne_resource h
  intro hrefused
  cases hrefused with
  | block hvariable _ => exact hvariable h
  | driver hresource _ => exact hother hresource
  | fields hresource _ _ => exact hother hresource

theorem Block.variable_of_faultless {b : Block} (h : ∀ e, ¬ b.Refused e)
    (hresource : b.id.name ≠ "resource") : b.id.name = "variable" := by
  by_contra hvariable
  exact h _ (.block hvariable hresource)

theorem Block.refused_iff_unknown {b : Block} (hvariable : b.id.name ≠ "variable")
    (hresource : b.id.name ≠ "resource") {e : Failure} :
    b.Refused e ↔ e = .unknownBlock b.id.name b.reference := by
  constructor
  · intro h
    cases h with
    | block _ _ => rfl
    | driver h _ => exact absurd h hresource
    | fields h _ _ => exact absurd h hresource
  · rintro rfl
    exact .block hvariable hresource

theorem Block.refused_iff_ofBlock {b : Block} (hresource : b.id.name = "resource") (id : String)
    {e : Failure} : b.Refused e ↔ Resource.ofBlock id b = .error e := by
  simp only [Resource.ofBlock, Resource.build]
  constructor
  · intro h
    cases h with
    | block _ hother => exact absurd hresource hother
    | driver _ hdriver => simp only [Driver.ofName?_eq_none_iff.mpr hdriver]
    | fields _ hd hfault => simp only [Driver.ofName?_eq_some_iff.mpr hd, hfault]
  · intro h
    split at h
    · next hnone =>
        cases h
        exact .driver hresource (Driver.ofName?_eq_none_iff.mp hnone)
    · next d hd =>
        split at h
        · next fault hfault =>
            cases h
            exact .fields hresource (Driver.ofName?_eq_some_iff.mp hd) hfault
        · cases h

theorem Block.accepted_iff {b : Block} (hvariable : b.id.name ≠ "variable") :
    b.Accepted ↔ ∀ e, ¬ b.Refused e := by
  by_cases hresource : b.id.name = "resource"
  · simp only [refused_iff_ofBlock hresource "", Accepted, hresource, true_and]
    constructor
    · rintro ⟨d, hd, kind, hkind⟩ e h
      simp [Resource.ofBlock, Resource.build, Driver.ofName?_eq_some_iff.mpr hd, hkind] at h
    · intro h
      cases hblock : Resource.ofBlock "" b with
      | error e => exact absurd hblock (h e)
      | ok r =>
          obtain ⟨_, _, d, hd, hkind⟩ := Resource.ofBlock_ok hblock
          exact ⟨d, Driver.ofName?_eq_some_iff.mp hd, r.kind, hkind⟩
  · simp [Accepted, hresource, refused_iff_unknown hvariable hresource]

namespace Suite

/-- The second pass looks at all blocks. -/
theorem register_error_iff {start : Registry} {blocks : List (String × Block)} {e : Failure} :
    register start blocks = .error e ↔ FirstFault Block.Refused (blocks.map Prod.snd) e := by
  induction blocks generalizing start with
  | nil => simp [register, FirstFault.not_nil]
  | cons entry more ih =>
      obtain ⟨id, b⟩ := entry
      simp only [register, List.map_cons, firstFault_cons]
      by_cases hvariable : b.id.name = "variable"
      · simp [hvariable, Block.refused_of_variable hvariable, ih]
      · by_cases hresource : b.id.name = "resource"
        · simp only [Block.refused_iff_ofBlock hresource id]
          cases hblock : Resource.ofBlock id b with
          | error e' => simp [hresource]
          | ok r => simp [hresource, ih]
        · simp [hvariable, hresource, Block.refused_iff_unknown hvariable hresource, eq_comm]

theorem made_cons_of_ne {id : String} {b : Block} (hother : b.id.name ≠ "resource")
    (more : List (String × Block)) : made ((id, b) :: more) = made more := by
  simp [made, hother]

theorem made_cons_of_ok {id : String} {b : Block} (hresource : b.id.name = "resource")
    {r : Resource} (hblock : Resource.ofBlock id b = .ok r) (more : List (String × Block)) :
    made ((id, b) :: more) = r :: made more := by
  simp [made, hresource, hblock, Except.toOption]

theorem made_keys {blocks : List (String × Block)}
    (h : Faultless Block.Refused (blocks.map Prod.snd)) :
    (made blocks).map Resource.reference =
      ((blocks.map Prod.snd).filter fun b => b.id.name == "resource").map Block.reference := by
  induction blocks with
  | nil => rfl
  | cons entry more ih =>
      obtain ⟨id, b⟩ := entry
      rw [List.map_cons, faultless_cons] at h
      by_cases hresource : b.id.name = "resource"
      · cases hblock : Resource.ofBlock id b with
        | error e => exact absurd ((Block.refused_iff_ofBlock hresource id).mpr hblock) (h.1 e)
        | ok r =>
            have hkey : r.reference = b.reference :=
              congrArg Block.reference (Resource.ofBlock_ok hblock).2.1
            simp [made_cons_of_ok hresource hblock, hresource, hkey, ih h.2]
      · simp [made_cons_of_ne hresource, hresource, ih h.2]

theorem register_eq_ok_iff {start registry : Registry} {blocks : List (String × Block)} :
    register start blocks = .ok registry ↔
      Faultless Block.Refused (blocks.map Prod.snd) ∧
        registry = start.insertAll (made blocks) := by
  induction blocks generalizing start with
  | nil => simp [register, made, Faultless.nil, Registry.insertAll, eq_comm]
  | cons entry more ih =>
      obtain ⟨id, b⟩ := entry
      simp only [register, List.map_cons, faultless_cons]
      by_cases hvariable : b.id.name = "variable"
      · have hother := Block.ne_resource hvariable
        simp [hvariable, Block.refused_of_variable hvariable, ih, made_cons_of_ne hother]
      · by_cases hresource : b.id.name = "resource"
        · simp only [Block.refused_iff_ofBlock hresource id]
          cases hblock : Resource.ofBlock id b with
          | error e => simp [hresource]
          | ok r =>
              simp [hresource, ih, made_cons_of_ok hresource hblock, Registry.insertAll]
        · simp [hvariable, hresource, Block.refused_iff_unknown hvariable hresource]

end Suite

section Links

variable {registry : Registry} {bindings : Bindings}

theorem Link.find_eq_ok_iff {raw : String} {r : Resource} :
    find registry bindings raw = .ok r ↔ ∃ key, key ≠ "" ∧ registry.get? key = some r ∧
      Template.expand (some (registry.scope bindings)) raw = .ok ("$\x7b" ++ key ++ ".ref\x7d") := by
  constructor
  · exact find_ok
  · rintro ⟨key, hne, hget, hvalue⟩
    have hkey := referenceKey?_eq_some_iff.mpr ⟨hne, rfl⟩
    simp only [find, hvalue, hkey, hget]

theorem Link.resolve_error_iff {owner : String} {l : Link} {e : Failure} :
    l.resolve registry bindings owner = .error e ↔ LinkFails registry bindings (owner, l) e := by
  simp only [resolve, LinkFails]
  cases find registry bindings l.raw with
  | error fault => simp [eq_comm]
  | ok r => simp

theorem Link.resolveAll_error_iff {owner : String} {ls : List Link} {e : Failure} :
    (resolveAll registry bindings owner ls).1 = .error e ↔
      FirstFault (LinkFails registry bindings) (ls.map fun l => (owner, l)) e := by
  induction ls with
  | nil => simp [resolveAll, FirstFault.not_nil]
  | cons l more ih =>
      simp only [resolveAll, List.map_cons, firstFault_cons, ← resolve_error_iff]
      cases l.resolve registry bindings owner with
      | error e' => simp
      | ok linked => simp [ih]

theorem Resource.link_error_iff {r : Resource} {e : Failure} :
    (r.link registry bindings).1 = .error e ↔
      FirstFault (LinkFails registry bindings) r.ownedLinks e := by
  simp only [link, ownedLinks, links]
  cases r.kind with
  | step s =>
      rw [List.map_append, firstFault_append, ← Link.resolveAll_error_iff,
        ← Link.resolveAll_error_iff, ← faultless_iff_ok fun _ => Link.resolveAll_error_iff]
      rcases hassertions : Link.resolveAll registry bindings r.reference s.assertions with
        ⟨_ | _, linked⟩ <;> simp [hassertions]
  | test steps => exact Link.resolveAll_error_iff
  | assertion a => simp [FirstFault.not_nil]
  | capture c => simp [FirstFault.not_nil]

/-- The third pass looks at the links of the resources in registration order. -/
theorem Registry.linkEach_error_iff {resources : List Resource} {e : Failure} :
    (linkEach registry bindings resources).1 = .error e ↔
      FirstFault (LinkFails registry bindings) (resources.flatMap Resource.ownedLinks) e := by
  induction resources with
  | nil => simp [linkEach, FirstFault.not_nil]
  | cons r more ih =>
      rw [List.flatMap_cons, firstFault_append, ← ih, ← Resource.link_error_iff,
        ← faultless_iff_ok fun _ => Resource.link_error_iff]
      simp only [linkEach]
      generalize r.link registry bindings = first
      obtain ⟨result, linked⟩ := first
      cases result <;> simp

theorem Registry.link_error_iff {e : Failure} :
    (registry.link bindings).1 = .error e ↔
      FirstFault (LinkFails registry bindings)
        (registry.resources.flatMap Resource.ownedLinks) e :=
  linkEach_error_iff

theorem Registry.link_isOk_iff :
    (registry.link bindings).1 = .ok () ↔
      ∀ r ∈ registry.resources, ∀ l ∈ r.links,
        ∃ target, Link.find registry bindings l.raw = .ok target := by
  rw [faultless_iff_ok fun _ => link_error_iff]
  simp only [Faultless, List.forall_mem_flatMap, Resource.ownedLinks, List.forall_mem_map,
    ← Link.resolve_error_iff, Link.resolve]
  refine forall₄_congr fun r _ l _ => ?_
  cases Link.find registry bindings l.raw <;> simp

end Links

namespace Suite

variable {config : Config} {ids : Nat → String} {document : Document}

theorem withIds_blocks (ids : Nat → String) (document : Document) :
    (withIds ids document).map Prod.snd = document := by
  rw [withIds, List.map_map]
  exact List.zipIdx_map_fst 0 document

theorem survivors_eq (ids : Nat → String) (document : Document) :
    survivors ids document = Registry.empty.insertAll (made (withIds ids document)) :=
  congrArg Registry.mk (Registry.resources_insertAll _).symm

theorem register_withIds_eq_ok_iff {registry : Registry} :
    register .empty (withIds ids document) = .ok registry ↔
      Faultless Block.Refused document ∧ registry = survivors ids document := by
  rw [register_eq_ok_iff, withIds_blocks, survivors_eq]

theorem register_withIds_error_iff {e : Failure} :
    register .empty (withIds ids document) = .error e ↔ FirstFault Block.Refused document e := by
  rw [register_error_iff, withIds_blocks]

theorem load_eq_ok_iff {suite : Suite} :
    load config ids document = .ok suite ↔
      config.globals document = .ok suite.globals ∧ Faultless Block.Refused document ∧
        (survivors ids document).link suite.globals = (.ok (), suite.registry) := by
  constructor
  · intro h
    obtain ⟨hglobals, registry, hregister, hlink⟩ := load_ok h
    obtain ⟨hblocks, rfl⟩ := register_withIds_eq_ok_iff.mp hregister
    exact ⟨hglobals, hblocks, hlink⟩
  · rintro ⟨hglobals, hblocks, hlink⟩
    have hseed := Context.seed_blank suite.globals (config.globals_nodup document _ hglobals)
    simp only [load, hglobals, register_withIds_eq_ok_iff.mpr ⟨hblocks, rfl⟩, hseed, hlink]

/-- A suite fails to load by the first fault of the first pass that finds one. -/
theorem load_error_iff {e : Failure} :
    load config ids document = .error e ↔
      FirstFault Block.DefaultFault document e ∨
      ∃ globals, config.globals document = .ok globals ∧
        (FirstFault Block.Refused document e ∨
          Faultless Block.Refused document ∧
            FirstFault (LinkFails (survivors ids document) globals)
              ((survivors ids document).resources.flatMap Resource.ownedLinks) e) := by
  have hdefaults : config.globals document = .error e ↔
      FirstFault Block.DefaultFault document e := Config.globals_error_iff
  have hblocks : register .empty (withIds ids document) = .error e ↔
      FirstFault Block.Refused document e := register_withIds_error_iff
  simp only [← hdefaults, ← hblocks, ← Registry.link_error_iff, load]
  cases hglobals : config.globals document with
  | error e' => simp
  | ok globals =>
      have hseed := Context.seed_blank globals (config.globals_nodup document _ hglobals)
      cases hregister : register .empty (withIds ids document) with
      | error e' =>
          -- A refused block leaves nothing for the third pass to report.
          have hrefused : ¬ Faultless Block.Refused document := by
            intro hfaultless
            rw [register_withIds_eq_ok_iff.mpr ⟨hfaultless, rfl⟩] at hregister
            cases hregister
          simp [hrefused]
      | ok registry =>
          obtain ⟨hfaultless, rfl⟩ := register_withIds_eq_ok_iff.mp hregister
          rcases hlink : (survivors ids document).link globals with ⟨_ | _, linked⟩ <;>
            simp [hseed, hlink, hfaultless]

end Suite

theorem Block.faultless_default_iff {document : Document} :
    Faultless Block.DefaultFault document ↔
      ∀ b ∈ document, b.id.name = "variable" → ¬ b.ListsDefault := by
  refine forall₂_congr fun b _ => ?_
  constructor
  · intro h hvariable hlists
    exact h _ ⟨⟨hvariable, hlists⟩, rfl⟩
  · rintro h e ⟨⟨hvariable, hlists⟩, _⟩
    exact h hvariable hlists

theorem Block.faultless_refused_iff {document : Document} :
    Faultless Block.Refused document ↔
      ∀ b ∈ document, b.id.name ≠ "variable" → b.Accepted := by
  refine forall₂_congr fun b _ => ?_
  by_cases hvariable : b.id.name = "variable"
  · simp [hvariable, refused_of_variable hvariable]
  · simp [hvariable, accepted_iff hvariable]

theorem Config.globals_isOk_iff {config : Config} {document : Document} :
    (∃ globals, config.globals document = .ok globals) ↔
      Faultless Block.DefaultFault document :=
  declareGlobals_isOk_iff

theorem load_reports_first_fault (config : Config) (ids : Nat → String) (document : Document) :
    ((∃ suite, Suite.load config ids document = .ok suite) ↔
      (∀ b ∈ document, b.id.name = "variable" → ¬ b.ListsDefault) ∧
      (∀ b ∈ document, b.id.name ≠ "variable" → b.Accepted) ∧
      ∃ globals, config.globals document = .ok globals ∧
        ∀ r ∈ (Suite.survivors ids document).resources, ∀ l ∈ r.links,
          ∃ target key, key ≠ "" ∧ (Suite.survivors ids document).get? key = some target ∧
            Template.expand (some ((Suite.survivors ids document).scope globals)) l.raw =
              .ok ("$\x7b" ++ key ++ ".ref\x7d")) ∧
    ∀ e, Suite.load config ids document = .error e ↔
      FirstFault Block.DefaultFault document e ∨
      (Faultless Block.DefaultFault document ∧ FirstFault Block.Refused document e) ∨
      (Faultless Block.DefaultFault document ∧ Faultless Block.Refused document ∧
        ∃ globals, config.globals document = .ok globals ∧
          FirstFault (LinkFails (Suite.survivors ids document) globals)
            ((Suite.survivors ids document).resources.flatMap Resource.ownedLinks) e) := by
  have hdefaults : (∃ globals, config.globals document = .ok globals) ↔
      Faultless Block.DefaultFault document := Config.globals_isOk_iff
  constructor
  · simp only [← Block.faultless_default_iff, ← Block.faultless_refused_iff, ← hdefaults,
      ← Link.find_eq_ok_iff, ← Registry.link_isOk_iff]
    constructor
    · rintro ⟨suite, h⟩
      obtain ⟨hglobals, hblocks, hlink⟩ := Suite.load_eq_ok_iff.mp h
      exact ⟨⟨_, hglobals⟩, hblocks, _, hglobals, congrArg Prod.fst hlink⟩
    · rintro ⟨_, hblocks, globals, hglobals, hlink⟩
      let suite : Suite := ⟨((Suite.survivors ids document).link globals).2, globals⟩
      exact ⟨suite, Suite.load_eq_ok_iff.mpr ⟨hglobals, hblocks, Prod.ext hlink rfl⟩⟩
  · intro e
    rw [Suite.load_error_iff, ← hdefaults]
    constructor
    · rintro (h | ⟨globals, hglobals, h | ⟨hblocks, h⟩⟩)
      · exact .inl h
      · exact .inr (.inl ⟨⟨globals, hglobals⟩, h⟩)
      · exact .inr (.inr ⟨⟨globals, hglobals⟩, hblocks, globals, hglobals, h⟩)
    · rintro (h | ⟨⟨globals, hglobals⟩, h⟩ | ⟨_, hblocks, globals, hglobals, h⟩)
      · exact .inl h
      · exact .inr ⟨globals, hglobals, .inl h⟩
      · exact .inr ⟨globals, hglobals, .inr ⟨hblocks, h⟩⟩

end HttpSuite
