import HttpSuite.Proofs.Globals
import HttpSuite.Proofs.TemplateForm

/-!
Templates are evaluated piece by piece and once. A text that can be read has the same value in
front of another text as alone, unless the two make up a mark between them, so the value of
both is the one value followed by the other. What a variable holds is put in place as it is: a
mark inside it opens nothing.
-/

namespace HttpSuite
namespace Template

open HttpSuite.Text

/-- A mark in two texts is in one of them or made up of both. -/
theorem mark_infix_append {xs ys : List Char} (h : mark <:+: xs ++ ys) :
    mark <:+: xs ∨ mark <:+: ys ∨ (xs.getLast? = some '$' ∧ ys.head? = some '{') := by
  rcases List.infix_append_iff_ne_nil.mp h with hxs | hys | ⟨front, back, hfront, hback, hmark, hxs, hys⟩
  · exact .inl hxs
  · exact .inr (.inl hys)
  · refine .inr (.inr ?_)
    obtain ⟨c, front, rfl⟩ := List.exists_cons_of_ne_nil hfront
    obtain ⟨d, back, rfl⟩ := List.exists_cons_of_ne_nil hback
    obtain ⟨before, rfl⟩ := hxs
    obtain ⟨after, rfl⟩ := hys
    cases front with
    | nil =>
        cases hmark
        exact ⟨List.getLast?_concat, rfl⟩
    | cons e front =>
        have hlength := congrArg List.length hmark
        simp [mark] at hlength

/-- What a template given by its characters stands for. -/
def StandsFor (scope : Option Scope) (cs : List Char) (value : String) : Prop :=
  expand scope (String.ofList cs) = .ok value

section Values

variable {scope : Option Scope} {cs before after name rest : List Char} {f : Fragment}
  {fs : List Fragment} {v : String}

theorem concat_cons_ok : concat scope (f :: fs) = .ok v ↔
    ∃ x y, f.value scope = .ok x ∧ concat scope fs = .ok y ∧ v = x ++ y := by
  rw [concat]
  cases f.value scope with
  | error e => simp
  | ok x => cases concat scope fs <;> simp [eq_comm]

theorem concat_plainFragments : concat scope (plainFragments cs ++ fs) = .ok v ↔
    ∃ y, concat scope fs = .ok y ∧ v = String.ofList cs ++ y := by
  cases cs with
  | nil => simp [plainFragments]
  | cons c cs =>
      show concat scope (.text (String.ofList (c :: cs)) :: fs) = .ok v ↔ _
      rw [concat_cons_ok]
      simp [Fragment.value]

theorem standsFor_plain (h : cutAt? mark cs = none) :
    StandsFor scope cs v ↔ v = String.ofList cs := by
  rw [StandsFor, expand, parse, String.toList_ofList, read_plain h]
  show concat scope (plainFragments cs) = .ok v ↔ _
  rw [← List.append_nil (plainFragments cs), concat_plainFragments]
  simp [concat]

theorem not_standsFor_open (h : cutAt? mark cs = some (before, after))
    (hopen : cutAt? ['}'] after = none) : ¬ StandsFor scope cs v := by
  rw [StandsFor, expand, parse, String.toList_ofList, read_open h hopen]
  simp

theorem standsFor_reference (h : cutAt? mark cs = some (before, after))
    (hclosed : cutAt? ['}'] after = some (name, rest)) :
    StandsFor scope cs v ↔
      ∃ x y, (Fragment.reference (String.ofList name)).value scope = .ok x ∧
        StandsFor scope rest y ∧ v = String.ofList before ++ (x ++ y) := by
  simp only [StandsFor, expand, parse, String.toList_ofList, read_reference h hclosed]
  cases Fragment.ofTokens (tokens rest) with
  | error e => simp
  | ok more =>
      simp only [concat_plainFragments, concat_cons_ok]
      constructor
      · rintro ⟨_, ⟨x, y, hx, hy, rfl⟩, rfl⟩
        exact ⟨x, y, hx, hy, rfl⟩
      · rintro ⟨x, y, hx, hy, rfl⟩
        exact ⟨_, ⟨x, y, hx, hy, rfl⟩, rfl⟩

end Values

section Pieces

variable {scope : Option Scope} {xs ys before after name rest : List Char} {v : String}

/-- What follows a text changes nothing of the first reference in it. -/
theorem cutAt?_append_reference (hcut : cutAt? mark xs = some (before, after))
    (hclosed : cutAt? ['}'] after = some (name, rest)) (ys : List Char) :
    cutAt? mark (xs ++ ys) = some (before, after ++ ys) ∧
      cutAt? ['}'] (after ++ ys) = some (name, rest ++ ys) := by
  have hbefore := not_infix_of_cutAt? (List.cons_ne_nil _ _) hcut
  have hname : '}' ∉ name := by
    rw [← List.singleton_infix_iff]
    exact not_infix_of_cutAt? (List.cons_ne_nil _ _) hclosed
  refine ⟨?_, ?_⟩
  · rw [cutAt?_eq_some hcut, List.append_assoc]
    exact cutAt?_mark hbefore _
  · rw [cutAt?_eq_some hclosed, List.append_assoc]
    exact cutAt?_brace hname _

/-- A text without references stands in front of the value of what follows. -/
theorem standsFor_plain_append (hxs : ¬ mark <:+: xs)
    (hapart : ¬ (xs.getLast? = some '$' ∧ ys.head? = some '{')) :
    StandsFor scope (xs ++ ys) v ↔ ∃ y, StandsFor scope ys y ∧ v = String.ofList xs ++ y := by
  cases hys : cutAt? mark ys with
  | none =>
      have hnone : cutAt? mark (xs ++ ys) = none := by
        rw [cutAt?_eq_none_iff] at hys ⊢
        intro hmark
        rcases mark_infix_append hmark with h | h | h
        · exact hxs h
        · exact hys h
        · exact hapart h
      rw [standsFor_plain hnone, String.ofList_append]
      simp only [standsFor_plain hys, exists_eq_left]
  | some parts =>
      obtain ⟨before, after⟩ := parts
      have hbefore : ¬ mark <:+: xs ++ before := by
        intro hmark
        rcases mark_infix_append hmark with h | h | ⟨hlast, hhead⟩
        · exact hxs h
        · exact not_infix_of_cutAt? (List.cons_ne_nil _ _) hys h
        · refine hapart ⟨hlast, ?_⟩
          rw [cutAt?_eq_some hys, List.append_assoc, List.head?_append, hhead]
          rfl
      have hcut : cutAt? mark (xs ++ ys) = some (xs ++ before, after) := by
        rw [cutAt?_eq_some hys, List.append_assoc, ← List.append_assoc, ← List.append_assoc]
        exact cutAt?_mark hbefore after
      cases hclosed : cutAt? ['}'] after with
      | none =>
          refine iff_of_false (not_standsFor_open hcut hclosed) ?_
          rintro ⟨y, hy, _⟩
          exact not_standsFor_open hys hclosed hy
      | some parts =>
          obtain ⟨name, rest⟩ := parts
          rw [standsFor_reference hcut hclosed, String.ofList_append]
          constructor
          · rintro ⟨x, y, hx, hy, rfl⟩
            refine ⟨_, (standsFor_reference hys hclosed).mpr ⟨x, y, hx, hy, rfl⟩, ?_⟩
            rw [String.append_assoc]
          · rintro ⟨_, hvalue, rfl⟩
            obtain ⟨x, y, hx, hy, rfl⟩ := (standsFor_reference hys hclosed).mp hvalue
            exact ⟨x, y, hx, hy, (String.append_assoc ..).symm⟩

/-- By induction on the references of the first text: what follows the last of them stands in
front of the second text. -/
theorem standsFor_append {fs : List Fragment} (hxs : Fragment.ofTokens (tokens xs) = .ok fs)
    (hapart : ¬ (xs.getLast? = some '$' ∧ ys.head? = some '{')) :
    StandsFor scope (xs ++ ys) v ↔
      ∃ x y, StandsFor scope xs x ∧ StandsFor scope ys y ∧ v = x ++ y := by
  induction xs using tokens.induct generalizing fs v with
  | case1 xs hplain =>
      rw [standsFor_plain_append (cutAt?_eq_none_iff.mp hplain) hapart]
      simp only [standsFor_plain hplain, exists_and_left, exists_eq_left]
  | case2 xs before after hcut ih =>
      cases hclosed : cutAt? ['}'] after with
      | none =>
          rw [read_open hcut hclosed] at hxs
          cases hxs
      | some parts =>
          obtain ⟨name, rest⟩ := parts
          rw [read_reference hcut hclosed] at hxs
          cases hmore : Fragment.ofTokens (tokens rest) with
          | error e => rw [hmore] at hxs; cases hxs
          | ok more =>
              obtain ⟨hcut', hclosed'⟩ := cutAt?_append_reference hcut hclosed ys
              have hrest : ¬ (rest.getLast? = some '$' ∧ ys.head? = some '{') := by
                rintro ⟨hlast, hhead⟩
                refine hapart ⟨?_, hhead⟩
                rw [cutAt?_eq_some hcut, cutAt?_eq_some hclosed, List.getLast?_append,
                  List.getLast?_append, hlast]
                rfl
              rw [standsFor_reference hcut' hclosed']
              constructor
              · rintro ⟨x, _, hx, hboth, rfl⟩
                obtain ⟨y, z, hy, hz, rfl⟩ := (ih name rest hclosed hmore hrest).mp hboth
                refine ⟨_, z, (standsFor_reference hcut hclosed).mpr ⟨x, y, hx, hy, rfl⟩, hz, ?_⟩
                simp only [String.append_assoc]
              · rintro ⟨_, z, hvalue, hz, rfl⟩
                obtain ⟨x, y, hx, hy, rfl⟩ := (standsFor_reference hcut hclosed).mp hvalue
                refine ⟨x, y ++ z, hx, (ih name rest hclosed hmore hrest).mpr ⟨y, z, hy, hz, rfl⟩, ?_⟩
                simp only [String.append_assoc]

end Pieces

/-- A reference to a variable, as it is written. -/
def variableReference (name : String) : String :=
  "$\x7bvar." ++ name ++ "\x7d"

theorem trim_variable {name : List Char} (h : ∀ c ∈ name.getLast?, isBlank c = false) :
    trim ("var.".toList ++ name) = "var.".toList ++ name := by
  refine trim_eq_self (by simp [isBlank]) ?_
  intro c hc
  rw [List.getLast?_append] at hc
  cases hname : name.getLast? with
  | none =>
      rw [hname] at hc
      cases hc
      decide
  | some d =>
      rw [hname] at hc
      cases hc
      exact h c hname

/-- A template that is one reference has the value of the reference. -/
theorem expand_reference (scope : Option Scope) {name : String} (hname : '}' ∉ name.toList) :
    expand scope ("$\x7b" ++ name ++ "\x7d") = (Fragment.reference name).value scope := by
  have hchars : ("$\x7b" ++ name ++ "\x7d").toList =
      [] ++ (Fragment.reference name).chars ++ [] := by
    simp [Fragment.chars, mark]
  have hnone : cutAt? mark [] = none := rfl
  have hread := read_closed (cutAt?_eq_none_iff.mp hnone) hname (read_plain hnone)
  rw [expand, parse, hchars, hread]
  show concat scope [.reference name] = _
  rw [concat]
  cases (Fragment.reference name).value scope with
  | error e => rfl
  | ok value => simp only [concat, String.append_empty]

/-- The value of a variable is what it holds, and that is not read again. -/
theorem expand_variable (scope : Scope) {name : String} (hname : '}' ∉ name.toList)
    (hlast : ∀ c ∈ name.toList.getLast?, isBlank c = false) :
    expand (some scope) (variableReference name) =
      .ok ((scope.bindings.get? name).getD "") := by
  have hbrace : '}' ∉ ("var." ++ name).toList := by
    rw [String.toList_append, List.mem_append, not_or]
    exact ⟨by decide, hname⟩
  have hwritten : variableReference name = "$\x7b" ++ ("var." ++ name) ++ "\x7d" := by
    rw [variableReference, ← String.append_assoc]
    rfl
  have hlead : afterLead? "var.".toList ("var.".toList ++ name.toList) = some name.toList :=
    afterLead?_eq_some_iff.mpr rfl
  rw [hwritten, expand_reference _ hbrace]
  simp only [Fragment.value, String.toList_append, trim_variable hlast, resolve, hlead,
    String.ofList_toList]

end Template

open Template in
theorem expansion_is_single_pass :
    (∀ (scope : Option Scope) (a b : String), (∃ fs, parse a = .ok fs) →
      ¬ (a.toList.getLast? = some '$' ∧ b.toList.head? = some '{') →
      ∀ value, expand scope (a ++ b) = .ok value ↔
        ∃ x y, expand scope a = .ok x ∧ expand scope b = .ok y ∧ value = x ++ y) ∧
    ∀ (scope : Scope) (name : String), '}' ∉ name.toList →
      (∀ c ∈ name.toList.getLast?, Text.isBlank c = false) →
      expand (some scope) (variableReference name) =
        .ok ((scope.bindings.get? name).getD "") ∧
      ∀ stored, expand (some { scope with bindings := scope.bindings.set name stored })
        (variableReference name) = .ok stored := by
  refine ⟨?_, ?_⟩
  · rintro scope a b ⟨fs, hfs⟩ hapart value
    have hvalue : StandsFor scope (a.toList ++ b.toList) value ↔ _ := standsFor_append hfs hapart
    simpa only [StandsFor, String.ofList_append, String.ofList_toList] using hvalue
  · intro scope name hname hlast
    refine ⟨expand_variable scope hname hlast, ?_⟩
    intro stored
    rw [expand_variable _ hname hlast, Bindings.get?_set, if_pos rfl]
    rfl

/-- What a variable of the sample holds looks like a reference to another. -/
def sampleScope : Template.Scope :=
  { bindings := ⟨[("a", "$\x7bvar.b\x7d"), ("b", "2")]⟩, attributes? := fun _ => none }

open Template in
/-- The first text ends in the sign with which the mark at the head of the second begins. -/
theorem sample_expansion :
    (∃ fs, parse "$\x7bvar.a\x7d$" = .ok fs) ∧
    ¬ ("$\x7bvar.a\x7d$".toList.getLast? = some '$' ∧
      "$\x7bvar.b\x7d".toList.head? = some '{') ∧
    expand (some sampleScope) ("$\x7bvar.a\x7d$" ++ "$\x7bvar.b\x7d") =
      .ok "$\x7bvar.b\x7d$2" ∧
    '}' ∉ "a".toList ∧ (∀ c ∈ "a".toList.getLast?, Text.isBlank c = false) ∧
    expand (some sampleScope) (variableReference "a") = .ok "$\x7bvar.b\x7d" := by
  have hread : ∃ fs, parse "$\x7bvar.a\x7d$" = .ok fs :=
    ⟨[.reference "var.a", .text "$"], by decide +kernel⟩
  have hapart : ¬ ("$\x7bvar.a\x7d$".toList.getLast? = some '$' ∧
      "$\x7bvar.b\x7d".toList.head? = some '{') := by
    decide
  have hname : '}' ∉ "a".toList := by decide
  have hlast : ∀ c ∈ "a".toList.getLast?, Text.isBlank c = false := by
    rintro _ ⟨⟩
    decide
  have hvalue := expansion_is_single_pass.1 (some sampleScope) _ _ hread hapart
    "$\x7bvar.b\x7d$2"
  refine ⟨hread, hapart, hvalue.mpr ?_, hname, hlast, ?_⟩
  · exact ⟨"$\x7bvar.b\x7d$", "2", by decide +kernel, by decide +kernel,
      by decide +kernel⟩
  · exact (expansion_is_single_pass.2 sampleScope "a" hname hlast).1

end HttpSuite
