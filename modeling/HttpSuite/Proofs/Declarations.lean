import HttpSuite.Proofs.Reordering
import HttpSuite.Proofs.Reports

/-!
The variables that a document declares. Setting pairs in order where there are none gives a table
in which each name stands where it first occurs and has the value that is set last. The globals of
a document are such a table over its variable blocks, and the loaded context begins with it.
-/

namespace HttpSuite

namespace Bindings

/-- The last value that pairs give a name. -/
def lastSet? (name : String) (pairs : List (String × String)) : Option String :=
  (pairs.reverse.find? fun p => p.1 == name).map Prod.snd

theorem lastSet?_cons (name : String) (p : String × String) (more : List (String × String)) :
    lastSet? name (p :: more) =
      (lastSet? name more).or (if name = p.1 then some p.2 else none) := by
  rw [lastSet?, find?_reverse_cons, Option.map_or, apply_ite (Option.map Prod.snd)]
  simp only [beq_iff_eq, eq_comm (a := p.1)]
  rfl

theorem names_setAll (b : Bindings) (pairs : List (String × String)) :
    (b.setAll pairs).names = (pairs.map Prod.fst).foldl addNew b.names := by
  induction pairs generalizing b with
  | nil => rfl
  | cons p more ih => rw [setAll_cons, ih, names_set, List.map_cons, List.foldl_cons]

theorem names_setAll_empty (pairs : List (String × String)) :
    (empty.setAll pairs).names = distinct (pairs.map Prod.fst) :=
  names_setAll empty pairs

theorem get?_setAll (b : Bindings) (pairs : List (String × String)) (name : String) :
    (b.setAll pairs).get? name = (lastSet? name pairs).or (b.get? name) := by
  induction pairs generalizing b with
  | nil => rfl
  | cons p more ih =>
      rw [setAll_cons, ih, get?_set, lastSet?_cons, Option.or_assoc]
      by_cases hname : name = p.1
      · rw [if_pos hname, if_pos hname, Option.some_or]
      · rw [if_neg hname, if_neg hname, Option.none_or]

theorem get?_setAll_empty (pairs : List (String × String)) (name : String) :
    (empty.setAll pairs).get? name = lastSet? name pairs := by
  rw [get?_setAll]
  exact Option.or_none

/-- A name that is bound keeps its place. -/
theorem setEntry_mid (name value old : String) {before : List (String × String)}
    (h : name ∉ before.map Prod.fst) (after : List (String × String)) :
    setEntry name value (before ++ (name, old) :: after) = before ++ (name, value) :: after := by
  induction before with
  | nil => simp only [List.nil_append, setEntry, if_true]
  | cons e more ih =>
      rw [List.map_cons, List.mem_cons, not_or] at h
      simp only [List.cons_append, setEntry, if_neg (Ne.symm h.1), ih h.2]

theorem entries_set_mid {b : Bindings} (hnames : b.names.Nodup) (name value : String)
    {before after : List (String × String)} {old : String}
    (h : b.entries = before ++ (name, old) :: after) :
    (b.set name value).entries = before ++ (name, value) :: after := by
  rw [names, h, List.map_append, List.map_cons] at hnames
  have hfresh : name ∉ before.map Prod.fst := fun hmem =>
    (List.nodup_append.mp hnames).2.2 name hmem name List.mem_cons_self rfl
  rw [set, h]
  exact setEntry_mid name value old hfresh after

end Bindings

namespace Document

/-- The blocks that declare variables, whatever their driver. -/
def variableBlocks (document : Document) : List Block :=
  document.filter fun b => b.id.name == "variable"

/-- The last block that declares a variable. -/
def declaration? (document : Document) (name : String) : Option Block :=
  document.variableBlocks.reverse.find? fun b => b.name.text == name

end Document

/-- The value that a block gives its variable: the override if there is one, and the last default
otherwise. -/
def Block.declaredValue (override? : String → Option String) (b : Block) : String :=
  (override? b.name.text).getD (textOf "default" b.fields)

/-- The variables of a document with their values, in the order in which they are set. -/
def Document.declared (override? : String → Option String) (document : Document) :
    List (String × String) :=
  document.variableBlocks.map fun b => (b.name.text, b.declaredValue override?)

theorem variableDefault_ok {b : Block} {default : String} (h : variableDefault b = .ok default) :
    default = textOf "default" b.fields := by
  rw [variableDefault] at h
  split at h
  · cases h
  · exact (Except.ok.inj h).symm

theorem declareGlobals_ok {override? : String → Option String} {start globals : Bindings}
    {document : Document} (h : declareGlobals override? start document = .ok globals) :
    globals = start.setAll (document.declared override?) := by
  rw [← declareGlobals_filter] at h
  have hall : ∀ b ∈ document.variableBlocks, b.id.name = "variable" := fun b hb =>
    beq_iff_eq.mp (List.mem_filter.mp hb).2
  simp only [Document.declared]
  rw [← Document.variableBlocks] at h
  generalize document.variableBlocks = blocks at h hall ⊢
  induction blocks generalizing start with
  | nil =>
      cases h
      rfl
  | cons b more ih =>
      obtain ⟨hb, hmore⟩ := List.forall_mem_cons.mp hall
      simp only [declareGlobals, hb, if_true] at h
      split at h
      · cases h
      · next default hdefault =>
          cases variableDefault_ok hdefault
          exact ih h hmore

namespace Document

variable (override? : String → Option String) (document : Document)

theorem declared_names :
    (document.declared override?).map Prod.fst =
      document.variableBlocks.map fun b => b.name.text := by
  rw [declared, List.map_map]
  rfl

/-- The last value of a variable comes from the last block that declares it. -/
theorem lastSet?_declared (name : String) :
    Bindings.lastSet? name (document.declared override?) =
      (document.declaration? name).map (Block.declaredValue override?) := by
  rw [Bindings.lastSet?, declared, ← List.map_reverse, List.find?_map, Option.map_map]
  rfl

end Document

theorem Suite.load_bindings {config : Config} {ids : Nat → String} {document : Document}
    {suite : Suite} (h : load config ids document = .ok suite) :
    config.globals document = .ok suite.loaded.bindings := by
  have hglobals := (load_ok h).1
  rw [loaded, Context.seed_blank _ (config.globals_nodup document _ hglobals)]
  exact hglobals

theorem globals_reduce_document (override? : String → Option String) (document : Document) :
    ((∃ globals, declareGlobals override? .empty document = .ok globals) ↔
      ∀ b ∈ document, b.id.name = "variable" → ¬ b.ListsDefault) ∧
    (∀ other : Document, other.variableBlocks = document.variableBlocks →
      declareGlobals override? .empty other = declareGlobals override? .empty document) ∧
    ∀ globals, declareGlobals override? .empty document = .ok globals →
      globals.names.Nodup ∧
      globals.names = distinct (document.variableBlocks.map fun b => b.name.text) ∧
      (∀ name, globals.get? name = (document.declaration? name).map fun b =>
        (override? name).getD (textOf "default" b.fields)) ∧
      (∀ later : List (String × String),
        (globals.setAll later).names.Nodup ∧
        (globals.setAll later).names = distinct (globals.names ++ later.map Prod.fst) ∧
        (∀ name, (globals.setAll later).get? name =
          (Bindings.lastSet? name later).or (globals.get? name)) ∧
        ∀ name value,
          (∀ before old after, (globals.setAll later).entries = before ++ (name, old) :: after →
            ((globals.setAll later).set name value).entries =
              before ++ (name, value) :: after) ∧
          (name ∉ (globals.setAll later).names →
            ((globals.setAll later).set name value).entries =
              (globals.setAll later).entries ++ [(name, value)])) ∧
      ∀ (config : Config) (ids : Nat → String) (suite : Suite), config.override? = override? →
        Suite.load config ids document = .ok suite → suite.loaded.bindings = globals := by
  refine ⟨declareGlobals_isOk_iff.trans Block.faultless_default_iff, ?_, ?_⟩
  · intro other h
    rw [← declareGlobals_filter, ← declareGlobals_filter override? .empty document]
    exact congrArg (declareGlobals override? .empty) h
  · intro globals h
    have hdeclared := declareGlobals_ok h
    have hnodup := declareGlobals_nodup override? document .empty globals List.nodup_nil h
    refine ⟨hnodup, ?_, ?_, ?_, ?_⟩
    · rw [hdeclared, Bindings.names_setAll_empty, Document.declared_names]
    · intro name
      rw [hdeclared, Bindings.get?_setAll_empty, Document.lastSet?_declared]
      refine Option.map_congr fun b hb => ?_
      have hname := List.find?_some hb
      rw [Block.declaredValue, beq_iff_eq.mp hname]
    · intro later
      have hlater : (globals.setAll later).names.Nodup := by
        rw [Bindings.names_setAll]
        exact nodup_foldl_addNew hnodup _
      refine ⟨hlater, ?_, Bindings.get?_setAll globals later, ?_⟩
      · rw [Bindings.names_setAll, distinct_append, distinct_of_nodup hnodup]
      · intro name value
        refine ⟨?_, ?_⟩
        · intro before old after hentries
          exact Bindings.entries_set_mid hlater name value hentries
        · intro hfresh
          exact Bindings.setEntry_fresh name value _ hfresh
    · intro config ids suite hconfig hload
      have hglobals := Suite.load_bindings hload
      rw [Config.globals, hconfig, h] at hglobals
      exact (Except.ok.inj hglobals).symm

/-!
Two variables that are declared twice each, by blocks of several drivers. The one has an override,
and the last declaration of the other gives two defaults.
-/

namespace Sample

def overriding : Config where
  filter := none
  envPrefix := "V_"
  lookup := fun name => if name = "V_host" then some "b" else none

def port : Block :=
  .bare "variable" "number" "port" [.bare "default" "1", .bare "text" "", .bare "default" "2"]

def declarations : Document :=
  [ .bare "variable" "string" "host" [.bare "default" "a"], .bare "variable" "number" "port" [],
    ok, .bare "variable" "name" "host" [], port ]

def declaredGlobals : Bindings :=
  ⟨[("host", "b"), ("port", "2")]⟩

def declaredSuite : Suite :=
  { registry := ⟨[⟨"2", ok, .assertion (.statusCode "200")⟩]⟩, globals := declaredGlobals }

end Sample

theorem sample_globals :
    declareGlobals Sample.overriding.override? .empty Sample.declarations =
      .ok Sample.declaredGlobals ∧
    declareGlobals Sample.overriding.override? .empty Sample.declarations.variableBlocks =
      .ok Sample.declaredGlobals ∧
    Sample.declaredGlobals.get? "port" = some (textOf "default" Sample.port.fields) ∧
    ((Sample.declaredGlobals.setAll [("path", "/")]).set "host" "c").entries =
      [("host", "c"), ("port", "2"), ("path", "/")] ∧
    ((Sample.declaredGlobals.setAll [("path", "/")]).set "user" "d").entries =
      [("host", "b"), ("port", "2"), ("path", "/"), ("user", "d")] ∧
    Sample.declaredSuite.loaded.bindings = Sample.declaredGlobals := by
  obtain ⟨_, hblocks, hglobals⟩ :=
    globals_reduce_document Sample.overriding.override? Sample.declarations
  have hdeclared : declareGlobals Sample.overriding.override? .empty Sample.declarations =
      .ok Sample.declaredGlobals := by decide +kernel
  have hvariables := hblocks Sample.declarations.variableBlocks (by decide +kernel)
  obtain ⟨_, _, hget, hlater, hloaded⟩ := hglobals Sample.declaredGlobals hdeclared
  obtain ⟨_, _, _, hset⟩ := hlater [("path", "/")]
  have hload : Suite.load Sample.overriding toString Sample.declarations =
      .ok Sample.declaredSuite := by decide +kernel
  refine ⟨hdeclared, hvariables.trans hdeclared, hget "port", ?_, ?_, ?_⟩
  · exact (hset "host" "c").1 [] "b" [("port", "2"), ("path", "/")] (by decide +kernel)
  · exact (hset "user" "d").2 (by decide +kernel)
  · exact hloaded Sample.overriding toString Sample.declaredSuite rfl hload

end HttpSuite
