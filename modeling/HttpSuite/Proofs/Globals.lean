import HttpSuite.Proofs.FirstOccurrence
import HttpSuite.Suite

/-!
Tables in which each name is bound once. Setting a variable keeps names distinct, so the globals
of a document are such a table. Setting all entries of one in a table without variables gives
it back: a context seeded with the globals holds exactly them, whether it is the loaded one or
a copy made for a test.
-/

namespace HttpSuite
namespace Bindings

/-- The bound names in order. -/
def names (b : Bindings) : List String :=
  b.entries.map Prod.fst

theorem setEntry_fresh (name value : String) (entries : List (String × String))
    (h : name ∉ entries.map Prod.fst) :
    setEntry name value entries = entries ++ [(name, value)] := by
  induction entries with
  | nil => rfl
  | cons e more ih =>
      rw [List.map_cons, List.mem_cons, not_or] at h
      simp only [setEntry, if_neg (Ne.symm h.1), ih h.2, List.cons_append]

theorem setEntry_names (name value : String) (entries : List (String × String)) :
    (setEntry name value entries).map Prod.fst = addNew (entries.map Prod.fst) name := by
  induction entries with
  | nil => rfl
  | cons e more ih =>
      by_cases he : e.1 = name
      · simp only [setEntry, he, if_true, List.map_cons, addNew_cons_self]
      · simp only [setEntry, if_neg he, List.map_cons, ih, addNew_cons_ne he]

theorem names_set (b : Bindings) (name value : String) :
    (b.set name value).names = addNew b.names name :=
  setEntry_names name value b.entries

theorem lookup_cons_eq (name value other : String) (entries : List (String × String)) :
    ((name, value) :: entries).lookup other =
      if other = name then some value else entries.lookup other := by
  rw [List.lookup_cons]
  by_cases h : other = name
  · simp only [h, beq_self_eq_true, if_true]
  · simp only [beq_eq_false_iff_ne.mpr h, if_neg h]

theorem setEntry_lookup (name value other : String) (entries : List (String × String)) :
    (setEntry name value entries).lookup other =
      if other = name then some value else entries.lookup other := by
  induction entries with
  | nil => exact lookup_cons_eq name value other []
  | cons e more ih =>
      obtain ⟨n, v⟩ := e
      by_cases hn : n = name
      · subst hn
        simp only [setEntry, if_true, lookup_cons_eq]
        split <;> rfl
      · simp only [setEntry, if_neg hn, lookup_cons_eq, ih]
        split
        · next h => rw [if_neg (h ▸ hn)]
        · rfl

theorem get?_set (b : Bindings) (name value other : String) :
    (b.set name value).get? other = if other = name then some value else b.get? other :=
  setEntry_lookup name value other b.entries

theorem setAll_cons (b : Bindings) (e : String × String) (more : List (String × String)) :
    b.setAll (e :: more) = (b.set e.1 e.2).setAll more := rfl

/-- Entries with new and distinct names are appended as they are. -/
theorem setAll_fresh (b : Bindings) (entries : List (String × String))
    (h : (b.names ++ entries.map Prod.fst).Nodup) :
    (b.setAll entries).entries = b.entries ++ entries := by
  induction entries generalizing b with
  | nil => simp [setAll]
  | cons e more ih =>
      have hfresh : e.1 ∉ b.names := by
        intro hmem
        have hapart := (List.nodup_append.mp h).2.2
        exact hapart e.1 hmem e.1 (by simp) rfl
      have hset : (b.set e.1 e.2).entries = b.entries ++ [e] :=
        setEntry_fresh e.1 e.2 b.entries hfresh
      have hnames : (b.set e.1 e.2).names = b.names ++ [e.1] := by
        rw [names_set, addNew_of_not_mem hfresh]
      rw [setAll_cons, ih, hset, List.append_assoc, List.singleton_append]
      rw [hnames, List.append_assoc, List.singleton_append]
      exact h

theorem setAll_empty (b : Bindings) (h : b.names.Nodup) : empty.setAll b.entries = b := by
  have hentries := setAll_fresh empty b.entries h
  cases b
  exact congrArg Bindings.mk hentries

end Bindings

theorem declareGlobals_nodup (override? : String → Option String) (document : Document)
    (start globals : Bindings) (hstart : start.names.Nodup)
    (h : declareGlobals override? start document = .ok globals) : globals.names.Nodup := by
  induction document generalizing start with
  | nil =>
      cases h
      exact hstart
  | cons block more ih =>
      simp only [declareGlobals] at h
      split at h
      · split at h
        · cases h
        · refine ih _ ?_ h
          rw [Bindings.names_set]
          exact nodup_addNew hstart _
      · exact ih _ hstart h

theorem Config.globals_nodup (config : Config) (document : Document) (globals : Bindings)
    (h : config.globals document = .ok globals) : globals.names.Nodup :=
  declareGlobals_nodup config.override? document .empty globals List.nodup_nil h

theorem Context.seed_blank (globals : Bindings) (h : globals.names.Nodup) :
    Context.blank.seed globals = { bindings := globals, response := none } := by
  simp only [Context.seed, Context.blank, Bindings.setAll_empty globals h]

end HttpSuite
