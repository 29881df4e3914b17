import HttpSuite.Execution
import Mathlib.Data.List.Chain
import Mathlib.Data.List.Infix

/-!
The written form of templates. A list of fragments is normal if its texts are not empty, stand
apart and open no reference, and no reference holds the brace that closes it. Every text that
can be read is the form of exactly one normal list, and a text that cannot be read is the form of
none: somewhere it opens a reference and never closes it.
-/

namespace HttpSuite
namespace Template

open HttpSuite.Text

namespace Fragment

/-- How a fragment is written. -/
def chars : Fragment → List Char
  | text s => s.toList
  | reference s => mark ++ s.toList ++ ['}']

def isText : Fragment → Bool
  | text _ => true
  | reference _ => false

/-- A fragment that can be told from what stands around it. -/
def IsPlain : Fragment → Prop
  | text s => s ≠ "" ∧ ¬ mark <:+: s.toList
  | reference s => '}' ∉ s.toList

end Fragment

/-- Fragments that can be told from each other when they are written side by side. -/
structure Normal (fs : List Fragment) : Prop where
  plain : ∀ f ∈ fs, f.IsPlain
  apart : fs.IsChain fun f g => ¬ (f.isText = true ∧ g.isText = true)

/-- The text in which fragments are written one after the other. -/
def render (fs : List Fragment) : String :=
  String.ofList (fs.flatMap Fragment.chars)

namespace Normal

variable {s name : String} {fs : List Fragment}

theorem nil : Normal [] where
  plain _ h := absurd h List.not_mem_nil
  apart := .nil

theorem text (hne : s ≠ "") (hmark : ¬ mark <:+: s.toList) : Normal [.text s] where
  plain f hf := by
    cases List.mem_singleton.mp hf
    exact ⟨hne, hmark⟩
  apart := .singleton _

theorem reference (hname : '}' ∉ name.toList) (h : Normal fs) :
    Normal (.reference name :: fs) where
  plain f hf := by
    cases hf with
    | head => exact hname
    | tail _ hf => exact h.plain f hf
  apart := by
    rw [List.isChain_cons]
    exact ⟨fun _ _ hboth => Bool.false_ne_true hboth.1, h.apart⟩

theorem text_reference (hne : s ≠ "") (hmark : ¬ mark <:+: s.toList)
    (h : Normal (.reference name :: fs)) : Normal (.text s :: .reference name :: fs) where
  plain f hf := by
    cases hf with
    | head => exact ⟨hne, hmark⟩
    | tail _ hf => exact h.plain f hf
  apart := .cons_cons (fun hboth => Bool.false_ne_true hboth.2) h.apart

theorem of_cons {f : Fragment} (h : Normal (f :: fs)) : Normal fs where
  plain g hg := h.plain g (List.mem_cons_of_mem f hg)
  apart := h.apart.of_cons

end Normal

/-- The fragment of a text between references, if there is any. -/
def plainFragments (cs : List Char) : List Fragment :=
  if cs.isEmpty then [] else [.text (String.ofList cs)]

theorem plainFragments_chars (cs : List Char) :
    (plainFragments cs).flatMap Fragment.chars = cs := by
  cases cs with
  | nil => rfl
  | cons c cs =>
      show (String.ofList (c :: cs)).toList ++ [] = c :: cs
      rw [List.append_nil, String.toList_ofList]

theorem plainFragments_toList {s : String} (h : s ≠ "") :
    plainFragments s.toList = [.text s] := by
  have hne : s.toList.isEmpty = false := by
    rw [List.isEmpty_eq_false_iff, ne_eq, String.toList_eq_nil_iff]
    exact h
  rw [plainFragments, hne, String.ofList_toList]
  rfl

theorem normal_plainFragments {cs : List Char} (h : ¬ mark <:+: cs) :
    Normal (plainFragments cs) := by
  cases cs with
  | nil => exact .nil
  | cons c cs =>
      refine .text ?_ ?_
      · rw [ne_eq, String.ofList_eq_empty_iff]
        exact List.cons_ne_nil c cs
      · rwa [String.toList_ofList]

theorem normal_plainFragments_append {cs : List Char} {name : String} {fs : List Fragment}
    (hcs : ¬ mark <:+: cs) (h : Normal (.reference name :: fs)) :
    Normal (plainFragments cs ++ .reference name :: fs) := by
  cases cs with
  | nil => exact h
  | cons c cs =>
      refine .text_reference ?_ ?_ h
      · rw [ne_eq, String.ofList_eq_empty_iff]
        exact List.cons_ne_nil c cs
      · rwa [String.toList_ofList]

/-- A text cannot make up the mark with what follows it. -/
theorem cutAt?_mark {before : List Char} (h : ¬ mark <:+: before) (after : List Char) :
    cutAt? mark (before ++ mark ++ after) = some (before, after) := by
  refine cutAt?_append (List.cons_ne_nil _ _) ?_ after
  intro hoccurs
  cases List.infix_concat_iff.mp hoccurs with
  | inl hsuffix =>
      obtain ⟨front, hfront⟩ := hsuffix
      have hlast := congrArg List.getLast? hfront
      simp at hlast
  | inr hbefore => exact h hbefore

theorem cutAt?_brace {name : List Char} (h : '}' ∉ name) (rest : List Char) :
    cutAt? ['}'] (name ++ ['}'] ++ rest) = some (name, rest) := by
  refine cutAt?_append (List.cons_ne_nil _ _) ?_ rest
  rw [List.dropLast_singleton, List.append_nil, List.singleton_infix_iff]
  exact h

section Reading

variable {cs before after name rest : List Char} {fs more : List Fragment} {e : Fault}

theorem ofTokens_plainText (cs : List Char) (ts : List Token) :
    Fragment.ofTokens (plainText cs ++ ts) =
      match Fragment.ofTokens ts with
      | .error e => .error e
      | .ok more => .ok (plainFragments cs ++ more) := by
  cases cs with
  | nil =>
      show Fragment.ofTokens ts = _
      cases Fragment.ofTokens ts <;> rfl
  | cons c cs => rfl

theorem read_plain (h : cutAt? mark cs = none) :
    Fragment.ofTokens (tokens cs) = .ok (plainFragments cs) := by
  have htokens : tokens cs = plainText cs ++ [.finish] := by
    rw [tokens]
    split
    · rfl
    · next hsome => rw [h] at hsome; cases hsome
  rw [htokens, ofTokens_plainText]
  exact congrArg Except.ok (List.append_nil _)

theorem read_open (h : cutAt? mark cs = some (before, after)) (hopen : cutAt? ['}'] after = none) :
    Fragment.ofTokens (tokens cs) = .error .unterminated := by
  have htokens : tokens cs = plainText before ++ [.opening, .unterminated] := by
    rw [tokens]
    split
    · next hnone => rw [h] at hnone; cases hnone
    · next hsome =>
        rw [h] at hsome
        cases hsome
        split
        · rfl
        · next hclosed => rw [hopen] at hclosed; cases hclosed
  rw [htokens, ofTokens_plainText]
  rfl

theorem read_reference (h : cutAt? mark cs = some (before, after))
    (hclosed : cutAt? ['}'] after = some (name, rest)) :
    Fragment.ofTokens (tokens cs) =
      match Fragment.ofTokens (tokens rest) with
      | .error e => .error e
      | .ok more => .ok (plainFragments before ++ .reference (String.ofList name) :: more) := by
  have htokens : tokens cs = plainText before ++
      .opening :: .reference (String.ofList name) :: .closing :: tokens rest := by
    rw [tokens]
    split
    · next hnone => rw [h] at hnone; cases hnone
    · next hsome =>
        rw [h] at hsome
        cases hsome
        split
        · next hopen => rw [hclosed] at hopen; cases hopen
        · next hsome =>
            rw [hclosed] at hsome
            cases hsome
            rfl
  rw [htokens, ofTokens_plainText, Fragment.ofTokens]
  cases Fragment.ofTokens (tokens rest) <;> rfl

/-- What is read is normal, and it is written as it was. -/
theorem read_ok (h : Fragment.ofTokens (tokens cs) = .ok fs) :
    Normal fs ∧ fs.flatMap Fragment.chars = cs := by
  induction cs using tokens.induct generalizing fs with
  | case1 cs hplain =>
      rw [read_plain hplain] at h
      cases h
      exact ⟨normal_plainFragments (cutAt?_eq_none_iff.mp hplain), plainFragments_chars cs⟩
  | case2 cs before after hcut ih =>
      cases hclosed : cutAt? ['}'] after with
      | none =>
          rw [read_open hcut hclosed] at h
          cases h
      | some parts =>
          obtain ⟨name, rest⟩ := parts
          rw [read_reference hcut hclosed] at h
          split at h
          · cases h
          · next more hmore =>
              cases h
              obtain ⟨hnormal, hchars⟩ := ih name rest hclosed hmore
              have hbefore := not_infix_of_cutAt? (List.cons_ne_nil _ _) hcut
              have hname : '}' ∉ (String.ofList name).toList := by
                rw [String.toList_ofList, ← List.singleton_infix_iff]
                exact not_infix_of_cutAt? (List.cons_ne_nil _ _) hclosed
              refine ⟨normal_plainFragments_append hbefore (.reference hname hnormal), ?_⟩
              rw [List.flatMap_append, plainFragments_chars, List.flatMap_cons, Fragment.chars,
                String.toList_ofList, hchars, cutAt?_eq_some hcut, cutAt?_eq_some hclosed]
              simp only [List.append_assoc]

/-- A text that is not read opens a reference that it does not close. -/
theorem read_error (h : Fragment.ofTokens (tokens cs) = .error e) : e = .unterminated := by
  induction cs using tokens.induct with
  | case1 cs hplain =>
      rw [read_plain hplain] at h
      cases h
  | case2 cs before after hcut ih =>
      cases hclosed : cutAt? ['}'] after with
      | none =>
          rw [read_open hcut hclosed] at h
          cases h
          rfl
      | some parts =>
          obtain ⟨name, rest⟩ := parts
          rw [read_reference hcut hclosed] at h
          split at h
          · next hmore =>
              cases h
              exact ih name rest hclosed hmore
          · cases h

theorem read_closed {name : String} (hbefore : ¬ mark <:+: before) (hname : '}' ∉ name.toList)
    (h : Fragment.ofTokens (tokens rest) = .ok more) :
    Fragment.ofTokens (tokens (before ++ (Fragment.reference name).chars ++ rest)) =
      .ok (plainFragments before ++ .reference name :: more) := by
  have hwritten : before ++ (Fragment.reference name).chars ++ rest =
      before ++ mark ++ (name.toList ++ ['}'] ++ rest) := by
    simp only [Fragment.chars, List.append_assoc]
  rw [hwritten, read_reference (cutAt?_mark hbefore _) (cutAt?_brace hname rest), h,
    String.ofList_toList]

/-- Normal fragments are read back. A text is read together with the reference after it. -/
theorem read_chars : ∀ {fs : List Fragment}, Normal fs →
    Fragment.ofTokens (tokens (fs.flatMap Fragment.chars)) = .ok fs
  | [], _ => read_plain (cutAt?_eq_none_iff.mpr (by simp [mark]))
  | .reference name :: more, h => by
      have hname := h.plain _ List.mem_cons_self
      have hnone : ¬ mark <:+: [] := by simp [mark]
      exact read_closed hnone hname (read_chars h.of_cons)
  | [.text s], h => by
      obtain ⟨hne, hmark⟩ := h.plain _ List.mem_cons_self
      rw [List.flatMap_singleton, Fragment.chars, read_plain (cutAt?_eq_none_iff.mpr hmark),
        plainFragments_toList hne]
  | .text s :: .reference name :: more, h => by
      obtain ⟨hne, hmark⟩ := h.plain _ List.mem_cons_self
      have hname := h.of_cons.plain _ List.mem_cons_self
      have hread := read_closed hmark hname (read_chars h.of_cons.of_cons)
      rw [plainFragments_toList hne, List.append_assoc] at hread
      exact hread
  | .text s :: .text s' :: more, h => by
      have hapart := List.isChain_cons_cons.mp h.apart
      exact absurd ⟨rfl, rfl⟩ hapart.1

end Reading

end Template

open Template in
theorem normal_templates_are_read (text : String) :
    (∀ fs, parse text = .ok fs → Normal fs ∧ render fs = text) ∧
    (∀ fs, Normal fs → parse (render fs) = .ok fs) ∧
    ((∃ e, parse text = .error e) ↔ ∀ fs, Normal fs → render fs ≠ text) ∧
    ∀ e, parse text = .error e → e = .unterminated ∧
      e.message = "unterminated template, expected '\x7d'" ∧
      ∀ scope : Scope, scope.evaluate text = .error (.template text e) := by
  have hread : ∀ fs, parse text = .ok fs → Normal fs ∧ render fs = text := by
    intro fs h
    obtain ⟨hnormal, hchars⟩ := read_ok h
    exact ⟨hnormal, by rw [render, hchars, String.ofList_toList]⟩
  have hwritten : ∀ fs, Normal fs → parse (render fs) = .ok fs := by
    intro fs h
    rw [parse, render, String.toList_ofList]
    exact read_chars h
  refine ⟨hread, hwritten, ?_, ?_⟩
  · constructor
    · rintro ⟨e, he⟩ fs hfs rfl
      rw [hwritten fs hfs] at he
      cases he
    · intro hnone
      cases h : parse text with
      | error e => exact ⟨e, rfl⟩
      | ok fs => exact absurd (hread fs h).2 (hnone fs (hread fs h).1)
  · intro e he
    cases read_error he
    refine ⟨rfl, rfl, ?_⟩
    intro scope
    simp only [Scope.evaluate, expand, he]

example : Template.parse "$$\x7bvar.x\x7d\x7d" =
    .ok [.text "$", .reference "var.x", .text "\x7d"] := by
  decide +kernel

end HttpSuite
