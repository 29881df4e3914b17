import HttpSuite.Proofs.Expansion
import HttpSuite.Proofs.Listing

/-!
Resources under their own keys. A resource of a loaded suite is what its key leads to, whether a
link gives the key or a variable that holds the same text, and templates read its name and driver
as they were written. A key begins with the identifier of resource blocks, so it is no variable and
no blank stands before it; it ends at the last point of a reference, however many points and marks
are in the name.
-/

namespace HttpSuite

open HttpSuite.Text

namespace Template

/-- A reference to what a resource has under a name, as it is written. -/
def attributeReference (key name : String) : String :=
  "$\x7b" ++ key ++ "." ++ name ++ "\x7d"

/-- What can follow the last point of a reference. -/
structure IsAttributeName (name : List Char) : Prop where
  nonempty : name ≠ []
  closed : '}' ∉ name
  whole : '.' ∉ name
  trimmed : ∀ c ∈ name.getLast?, isBlank c = false

/-- What a reference names is read at the key before its last point. -/
theorem expand_attribute (scope : Scope) {key name : String} {c : Char} {rest : List Char}
    (hkey : key.toList = c :: rest) (hfirst : isBlank c = false) (hvar : c ≠ 'v')
    (hbrace : '}' ∉ key.toList) (hname : IsAttributeName name.toList)
    {attributes : String → Option String} (hknown : scope.attributes? key = some attributes) :
    expand (some scope) (attributeReference key name) = .ok ((attributes name).getD "") := by
  let reference := key.toList ++ '.' :: name.toList
  have hwritten : attributeReference key name =
      "$\x7b" ++ String.ofList reference ++ "\x7d" := by
    rw [attributeReference, ← String.toList_inj]
    simp [reference]
  have hclosed : '}' ∉ (String.ofList reference).toList := by
    rw [String.toList_ofList, List.mem_append, List.mem_cons, not_or, not_or]
    exact ⟨hbrace, by decide, hname.closed⟩
  have htrim : trim reference = reference := by
    refine trim_eq_self ?_ ?_
    · intro d hd
      simp only [reference, hkey, List.cons_append, List.head?_cons, Option.mem_some] at hd
      exact hd ▸ hfirst
    · intro d hd
      rw [List.getLast?_append_of_ne_nil _ (List.cons_ne_nil _ _),
        List.getLast?_cons_of_ne_nil hname.nonempty] at hd
      exact hname.trimmed d hd
  have hlead : afterLead? "var.".toList reference = none := by
    rw [Option.eq_none_iff_forall_ne_some]
    intro after hafter
    have hsplit := afterLead?_eq_some_iff.mp hafter
    simp only [reference, hkey] at hsplit
    exact hvar (List.cons.inj hsplit).1
  have hcut : cutAtLast? '.' reference = some (key.toList, name.toList) :=
    cutAtLast?_append hname.whole _
  rw [hwritten, expand_reference _ hclosed]
  simp only [Fragment.value, String.toList_ofList, htrim, resolve, hlead, hcut]
  obtain ⟨d, more, hd⟩ := List.exists_cons_of_ne_nil hname.nonempty
  simp only [hkey, hd]
  rw [← hkey, ← hd, String.ofList_toList, String.ofList_toList, hknown]

theorem isAttributeName_of_mem {name : String} (h : name ∈ ["ref", "name", "driver"]) :
    IsAttributeName name.toList := by
  simp only [List.mem_cons, List.not_mem_nil, or_false] at h
  rcases h with rfl | rfl | rfl <;>
    exact ⟨by decide, by decide, by decide, by rintro _ ⟨⟩; decide⟩

end Template

/-- A link with this text leads to the resource once it is resolved. -/
def Link.Finds (registry : Registry) (bindings : Bindings) (raw : String) (r : Resource) : Prop :=
  ∀ owner, ∃ l, (unresolved raw).resolve registry bindings owner = .ok l ∧
    l.isLinked = true ∧ l.target? registry = .ok r

theorem Link.finds_of_expand {registry : Registry} {bindings : Bindings} {raw : String}
    {r : Resource} (hne : r.reference ≠ "") (hget : registry.get? r.reference = some r)
    (hvalue : Template.expand (some (registry.scope bindings)) raw =
      .ok (Template.attributeReference r.reference "ref")) :
    Finds registry bindings raw r := by
  have hfind : find registry bindings raw = .ok r := by
    refine find_eq_ok_iff.mpr ⟨r.reference, hne, hget, hvalue.trans (congrArg Except.ok ?_)⟩
    simp [Template.attributeReference, String.append_assoc]
  intro owner
  refine ⟨⟨raw, some r.handle⟩, ?_, rfl, ?_⟩
  · simp only [resolve, unresolved, hfind, Option.none_or]
  · simp only [target?, Option.bind_some, Registry.holder?_handle hget]

theorem Driver.name_closed (d : Driver) : '}' ∉ d.name.toList := by
  cases d <;> decide

/-- The text of a link to a resource is one of its attributes. -/
theorem Resource.attribute?_ref (r : Resource) :
    r.attribute? "ref" = some (Template.attributeReference r.reference "ref") := by
  simp [attribute?, Template.attributeReference, String.append_assoc]

namespace Suite

variable {config : Config} {ids : Nat → String} {document : Document} {suite : Suite}

/-- How a key begins, and that nothing before the name closes a reference. -/
theorem load_key (h : load config ids document = .ok suite) {r : Resource}
    (hr : r ∈ suite.registry.resources) :
    ∃ rest, r.reference.toList = 'r' :: rest ∧
      ('}' ∈ rest → '}' ∈ r.block.name.text.toList) := by
  obtain ⟨_, b, _, hresource, hblock, hlinked⟩ := load_made h hr
  obtain ⟨_, hmade, d, hd, _⟩ := Resource.ofBlock_ok hblock
  have hsame : r.block = b := (Resource.link_ok hlinked).2.1.trans hmade
  have hdriver : r.block.driver.text = d.name := by
    rw [hsame]
    exact (Driver.ofName?_eq_some_iff.mp hd).symm
  have hid : r.block.id.name = "resource" := by rwa [hsame]
  refine ⟨"esource.".toList ++ d.name.toList ++ '.' :: r.block.name.text.toList, ?_, ?_⟩
  · simp [Resource.reference, Block.reference, hid, hdriver]
  · simp [d.name_closed]

/-- Templates read of a resource what it has. -/
theorem expand_own (h : load config ids document = .ok suite) {r : Resource}
    (hr : r ∈ suite.registry.resources) (hclosed : '}' ∉ r.block.name.text.toList)
    (bindings : Bindings) {name : String} (hname : name ∈ ["ref", "name", "driver"]) :
    Template.expand (some (suite.registry.scope bindings))
        (Template.attributeReference r.reference name) =
      .ok ((r.attribute? name).getD "") := by
  obtain ⟨rest, hkey, hrest⟩ := load_key h hr
  have hbrace : '}' ∉ r.reference.toList := by
    rw [hkey, List.mem_cons, not_or]
    exact ⟨by decide, fun hmem => hclosed (hrest hmem)⟩
  have hget := Registry.get?_of_mem (load_nodup_keys h) hr
  refine Template.expand_attribute _ hkey (by decide) (by decide) hbrace
    (Template.isAttributeName_of_mem hname) ?_
  simp only [Registry.scope, hget, Option.map_some]

/-- A text whose value is that of a link to a resource finds it. -/
theorem finds_own (h : load config ids document = .ok suite) {r : Resource}
    (hr : r ∈ suite.registry.resources) {bindings : Bindings} {raw : String}
    (hvalue : Template.expand (some (suite.registry.scope bindings)) raw =
      .ok (Template.attributeReference r.reference "ref")) :
    Link.Finds suite.registry bindings raw r := by
  obtain ⟨rest, hkey, _⟩ := load_key h hr
  have hne : r.reference ≠ "" := by
    intro hempty
    rw [hempty] at hkey
    cases hkey
  exact Link.finds_of_expand hne (Registry.get?_of_mem (load_nodup_keys h) hr) hvalue

end Suite

open Template in
theorem own_references_lead_back (config : Config) (ids : Nat → String) (document : Document)
    (suite : Suite) (hload : Suite.load config ids document = .ok suite) (r : Resource)
    (hr : r ∈ suite.registry.resources) (hname : '}' ∉ r.block.name.text.toList)
    (bindings : Bindings) :
    Link.Finds suite.registry bindings (attributeReference r.reference "ref") r ∧
    (∀ x : String, '}' ∉ x.toList → (∀ c ∈ x.toList.getLast?, isBlank c = false) →
      bindings.get? x = some (attributeReference r.reference "ref") →
        Link.Finds suite.registry bindings (variableReference x) r) ∧
    expand (some (suite.registry.scope bindings)) (attributeReference r.reference "name") =
      .ok r.block.name.text ∧
    expand (some (suite.registry.scope bindings)) (attributeReference r.reference "driver") =
      .ok r.block.driver.text := by
  have hown {name : String} (h : name ∈ ["ref", "name", "driver"]) :=
    Suite.expand_own hload hr hname bindings h
  refine ⟨?_, ?_, hown (by simp), hown (by simp)⟩
  · refine Suite.finds_own hload hr ((hown (by simp)).trans ?_)
    rw [r.attribute?_ref, Option.getD_some]
  · intro x hx hlast hheld
    refine Suite.finds_own hload hr ?_
    rw [expand_variable _ hx hlast]
    simp only [Registry.scope, hheld, Option.getD_some]

/-- The name begins with a blank, opens a reference and ends as links do. -/
theorem sample_own_references :
    let block : Block := .bare "resource" "system_variable" " a.b $\x7bc.ref"
      [.bare "source" "time", .bare "variable" "now"]
    let own := Template.attributeReference block.reference "ref"
    let document : Document := [.bare "variable" "string" "v" [.bare "default" own], block]
    let r : Resource := ⟨"1", block, .capture (.time "now" .unixNano)⟩
    let suite : Suite := ⟨⟨[r]⟩, ⟨[("v", own)]⟩⟩
    Suite.load Sample.setup.config Sample.setup.ids document = .ok suite ∧
      r ∈ suite.registry.resources ∧ '}' ∉ r.block.name.text.toList ∧
      Link.Finds suite.registry suite.globals own r ∧
      '}' ∉ "v".toList ∧ (∀ c ∈ "v".toList.getLast?, isBlank c = false) ∧
      suite.globals.get? "v" = some own ∧
      Link.Finds suite.registry suite.globals (Template.variableReference "v") r ∧
      Template.expand (some (suite.registry.scope suite.globals))
        (Template.attributeReference r.reference "name") = .ok " a.b $\x7bc.ref" := by
  intro block own document r suite
  have hload : Suite.load Sample.setup.config Sample.setup.ids document = .ok suite := by
    decide +kernel
  have hr : r ∈ suite.registry.resources := List.mem_singleton.mpr rfl
  have hname : '}' ∉ r.block.name.text.toList := by decide
  have hlast : ∀ c ∈ "v".toList.getLast?, isBlank c = false := by
    rintro _ ⟨⟩
    decide
  have hheld : suite.globals.get? "v" = some own := by decide +kernel
  obtain ⟨hlink, hvariable, htext, _⟩ :=
    own_references_lead_back Sample.setup.config Sample.setup.ids document suite hload r hr hname
      suite.globals
  exact ⟨hload, hr, hname, hlink, by decide, hlast, hheld,
    hvariable "v" (by decide) hlast hheld, htext⟩

end HttpSuite
