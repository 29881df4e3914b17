/-!
Finding and splitting in texts: first and last occurrences, fields between separators,
and names compared without regard to ASCII case.
-/

namespace HttpSuite.Text

theorem length_lt_of_dropWhile {α : Type} {holds : α → Bool} {xs rest : List α} {x : α}
    (h : xs.dropWhile holds = x :: rest) : rest.length < xs.length := by
  have hle := (List.dropWhile_sublist holds (l := xs)).length_le
  rw [h] at hle
  exact hle

theorem dropWhile_of_head {α : Type} {holds : α → Bool} {xs : List α}
    (h : ∀ x ∈ xs.head?, holds x = false) : xs.dropWhile holds = xs := by
  cases xs with
  | nil => rfl
  | cons x rest => exact List.dropWhile_cons_of_neg (by simp [h x rfl])

theorem takeWhile_of_head {α : Type} {holds : α → Bool} {xs : List α}
    (h : ∀ x ∈ xs.head?, holds x = false) : xs.takeWhile holds = [] := by
  cases xs with
  | nil => rfl
  | cons x rest => exact List.takeWhile_cons_of_neg (by simp [h x rfl])

/-- The text before the first occurrence of `pattern` and the text after it. -/
def cutAt? (pattern : List Char) : List Char → Option (List Char × List Char)
  | [] => if pattern.isEmpty then some ([], []) else none
  | c :: cs =>
    if pattern.isPrefixOf (c :: cs) then some ([], (c :: cs).drop pattern.length)
    else (cutAt? pattern cs).map fun (before, after) => (c :: before, after)

theorem cutAt?_eq_some {pattern cs before after : List Char}
    (h : cutAt? pattern cs = some (before, after)) : cs = before ++ pattern ++ after := by
  fun_induction cutAt? pattern cs generalizing before with
  | case1 hempty =>
      cases h
      simp_all
  | case2 => cases h
  | case3 c cs hlead =>
      cases h
      exact (List.prefix_iff_eq_append.mp (List.isPrefixOf_iff_prefix.mp hlead)).symm
  | case4 c cs hlead ih =>
      obtain ⟨⟨before', after'⟩, hcut, heq⟩ := Option.map_eq_some_iff.1 h
      cases heq
      exact congrArg (c :: ·) (ih hcut)

/-- What follows an occurrence is shorter by the pattern at least. -/
theorem cutAt?_length_le {pattern cs before after : List Char}
    (h : cutAt? pattern cs = some (before, after)) :
    after.length + pattern.length ≤ cs.length := by
  have hlength := congrArg List.length (cutAt?_eq_some h)
  simp only [List.length_append] at hlength
  omega

theorem cutAt?_eq_none_iff {pattern cs : List Char} :
    cutAt? pattern cs = none ↔ ¬ pattern <:+: cs := by
  fun_induction cutAt? pattern cs with
  | case1 hempty => simp_all
  | case2 hempty => simp_all
  | case3 c cs hlead =>
      have hoccurs := (List.isPrefixOf_iff_prefix.mp hlead).isInfix
      simp [hoccurs]
  | case4 c cs hlead ih =>
      rw [Option.map_eq_none_iff, ih, List.infix_cons_iff, not_or]
      simp_all [List.isPrefixOf_iff_prefix]

/-- What precedes the first occurrence holds no other. -/
theorem not_infix_of_cutAt? {pattern cs before after : List Char} (hpattern : pattern ≠ [])
    (h : cutAt? pattern cs = some (before, after)) : ¬ pattern <:+: before := by
  fun_induction cutAt? pattern cs generalizing before with
  | case1 =>
      cases h
      simpa using hpattern
  | case2 => cases h
  | case3 =>
      cases h
      simpa using hpattern
  | case4 c cs hlead ih =>
      obtain ⟨⟨before', after'⟩, hcut, heq⟩ := Option.map_eq_some_iff.1 h
      cases heq
      rw [List.infix_cons_iff, not_or]
      refine ⟨fun hprefix => hlead ?_, ih hcut⟩
      rw [List.isPrefixOf_iff_prefix, cutAt?_eq_some hcut, List.append_assoc]
      exact hprefix.trans (List.prefix_append (c :: before') (pattern ++ after))

theorem cutAt?_append {pattern before : List Char} (hpattern : pattern ≠ [])
    (h : ¬ pattern <:+: before ++ pattern.dropLast) (after : List Char) :
    cutAt? pattern (before ++ pattern ++ after) = some (before, after) := by
  induction before with
  | nil =>
      obtain ⟨p, ps, rfl⟩ := List.exists_cons_of_ne_nil hpattern
      simp [cutAt?]
  | cons c before ih =>
      rw [List.cons_append, List.infix_cons_iff, not_or] at h
      have hlead : ¬ pattern.isPrefixOf (c :: (before ++ pattern ++ after)) := by
        rw [List.isPrefixOf_iff_prefix]
        intro hprefix
        refine h.1 (List.prefix_of_prefix_length_le hprefix ?_ ?_)
        · refine ⟨pattern.getLast hpattern :: after, ?_⟩
          rw [List.cons_append, List.append_assoc, List.append_cons pattern.dropLast,
            List.dropLast_concat_getLast, List.append_assoc]
        · simp only [List.length_cons, List.length_append, List.length_dropLast]
          omega
      rw [List.cons_append, List.cons_append, cutAt?, if_neg hlead, ih h.2]
      rfl

/-- The text before the last occurrence of `mark` and the text after it. -/
def cutAtLast? (mark : Char) : List Char → Option (List Char × List Char)
  | [] => none
  | c :: cs =>
    match cutAtLast? mark cs with
    | some (before, after) => some (c :: before, after)
    | none => if c = mark then some ([], cs) else none

theorem cutAtLast?_eq_none {mark : Char} {cs : List Char} (h : mark ∉ cs) :
    cutAtLast? mark cs = none := by
  induction cs with
  | nil => rfl
  | cons c cs ih =>
      rw [List.mem_cons, not_or] at h
      rw [cutAtLast?, ih h.2, if_neg (Ne.symm h.1)]

theorem cutAtLast?_append {mark : Char} {back : List Char} (h : mark ∉ back)
    (front : List Char) : cutAtLast? mark (front ++ mark :: back) = some (front, back) := by
  induction front with
  | nil => rw [List.nil_append, cutAtLast?, cutAtLast?_eq_none h, if_pos rfl]
  | cons c front ih => rw [List.cons_append, cutAtLast?, ih]

/-- The fields between occurrences of `mark`; a text without any is one field. -/
def fields (mark : Char) : List Char → List (List Char)
  | [] => [[]]
  | c :: cs =>
    if c = mark then [] :: fields mark cs
    else match fields mark cs with
      | [] => [[c]]
      | field :: more => (c :: field) :: more

/-- The first field ends before the first mark. -/
theorem fields_eq (mark : Char) (cs : List Char) :
    fields mark cs = cs.takeWhile (· != mark) ::
      match cs.dropWhile (· != mark) with
      | [] => []
      | _ :: rest => fields mark rest := by
  induction cs with
  | nil => rfl
  | cons c cs ih =>
      by_cases hc : c = mark
      · simp [fields, hc]
      · simp [fields, hc, ih]

/-- A mark between two texts parts their fields. -/
theorem fields_append_mark (mark : Char) (front rest : List Char) :
    fields mark (front ++ mark :: rest) = fields mark front ++ fields mark rest := by
  induction front with
  | nil => exact if_pos rfl
  | cons c front ih =>
      rw [List.cons_append, fields, fields, ih]
      split
      · rfl
      · rw [fields_eq mark front]
        rfl

theorem length_le_of_mem_fields {mark : Char} {cs field : List Char} (h : field ∈ fields mark cs) :
    field.length ≤ cs.length := by
  induction cs generalizing field with
  | nil =>
      cases List.mem_singleton.mp h
      exact Nat.le_refl _
  | cons c cs ih =>
      have hle : ∀ field ∈ fields mark cs, field.length ≤ (c :: cs).length :=
        fun field hfield => Nat.le_succ_of_le (ih hfield)
      rw [fields] at h
      split at h
      · cases h with
        | head => exact Nat.zero_le _
        | tail _ hmem => exact hle field hmem
      · split at h
        · cases List.mem_singleton.mp h
          exact Nat.succ_le_succ (Nat.zero_le _)
        · next first more hfields =>
            rw [hfields] at ih hle
            cases h with
            | head => exact Nat.succ_le_succ (ih List.mem_cons_self)
            | tail _ hmem => exact hle field (List.mem_cons_of_mem _ hmem)

/-- Whether `pattern` stands somewhere in `cs`. Every text holds the empty one. -/
def occursIn (pattern cs : List Char) : Bool :=
  (cutAt? pattern cs).isSome

/-- What follows `lead` in `cs`, if `cs` begins with it. -/
def afterLead? (lead cs : List Char) : Option (List Char) :=
  if lead.isPrefixOf cs then some (cs.drop lead.length) else none

/-- What precedes `tail` in `cs`, if `cs` ends with it. -/
def beforeTail? (tail cs : List Char) : Option (List Char) :=
  if tail.isSuffixOf cs then some (cs.take (cs.length - tail.length)) else none

theorem afterLead?_eq_some_iff {lead cs rest : List Char} :
    afterLead? lead cs = some rest ↔ cs = lead ++ rest := by
  unfold afterLead?
  split
  · next hlead =>
      obtain ⟨after, rfl⟩ := List.isPrefixOf_iff_prefix.mp hlead
      simp
  · next hlead =>
      constructor
      · intro h
        cases h
      · rintro rfl
        exact absurd (List.isPrefixOf_iff_prefix.mpr (List.prefix_append lead rest)) hlead

theorem beforeTail?_eq_some_iff {tail cs front : List Char} :
    beforeTail? tail cs = some front ↔ cs = front ++ tail := by
  unfold beforeTail?
  split
  · next htail =>
      obtain ⟨before, rfl⟩ := List.isSuffixOf_iff_suffix.mp htail
      simp
  · next htail =>
      constructor
      · intro h
        cases h
      · rintro rfl
        exact absurd (List.isSuffixOf_iff_suffix.mpr (List.suffix_append front tail)) htail

/-- Equality of names up to the case of ASCII letters. -/
def sameName (a b : String) : Bool :=
  a.toList.map Char.toLower == b.toList.map Char.toLower

end HttpSuite.Text
