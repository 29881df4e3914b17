import HttpSuite.Json.Path
import HttpSuite.Proofs.Scanners

/-!
Locations inside JSON values. A location goes from a value to one inside it by keys of objects and
indices of lists. As a path it is followed selector by selector, so the path leads where the
location does and is refused where the location leads nowhere. Only an index that is too large to
be read is refused whatever the list.
-/

namespace HttpSuite
namespace Text

/-- A text without a mark goes to the first field of what comes behind it. -/
theorem fields_append {mark : Char} {front rest field : List Char} {more : List (List Char)}
    (hfront : mark ∉ front) (hrest : fields mark rest = field :: more) :
    fields mark (front ++ rest) = (front ++ field) :: more := by
  induction front with
  | nil => exact hrest
  | cons c front ih =>
      rw [List.mem_cons, not_or] at hfront
      rw [List.cons_append, fields, if_neg (Ne.symm hfront.1), ih hfront.2, List.cons_append]

theorem isBlank_of_isDigit {c : Char} (h : c.isDigit = true) : isBlank c = false := by
  simp only [Char.isDigit, Bool.and_eq_true, decide_eq_true_eq, ge_iff_le,
    UInt32.le_iff_toNat_le] at h
  have hrange : 48 ≤ c.toNat ∧ c.toNat ≤ 57 := h
  simp only [isBlank, Bool.or_eq_false_iff, Bool.and_eq_false_iff, decide_eq_false_iff_not,
    beq_eq_false_iff_ne]
  omega

end Text

namespace Json

open HttpSuite.Text

/-- One step of a location. -/
inductive Selector where
  | key (name : String)
  | index (n : Nat)
  deriving DecidableEq

/-- What a location leads to inside a value. -/
inductive Leads : Json → List Selector → Json → Prop where
  | here (value : Json) : Leads value [] value
  | key {members : List (String × Json)} {name : String} {item found : Json}
      {more : List Selector} (hitem : member? name members = some item)
      (hmore : Leads item more found) : Leads (.object members) (.key name :: more) found
  | index {items : List Json} {n : Nat} {item found : Json} {more : List Selector}
      (hitem : items[n]? = some item) (hmore : Leads item more found) :
      Leads (.list items) (.index n :: more) found

namespace Selector

/-- Keys have a character at least and none that means something in a path. -/
def IsWritable : Selector → Prop
  | key name => name ≠ "" ∧ '.' ∉ name.toList ∧ '[' ∉ name.toList
  | index _ => True

/-- How a selector is written behind another. -/
def chars : Selector → List Char
  | key name => '.' :: name.toList
  | index n => '[' :: Nat.toDigits 10 n ++ [']']

/-- Selects an item of a value. -/
def select (value : Json) : Selector → Except PathFault Json
  | key name => atKey name value
  | index n =>
    if n ≤ greatestIndex then atIndex n value
    else .error (.invalidIndex (String.ofList (Nat.toDigits 10 n)))

end Selector

/-- A location as a path. A point stands before each key but a first one. -/
def pathOf : List Selector → List Char
  | .key name :: more => name.toList ++ more.flatMap Selector.chars
  | location => location.flatMap Selector.chars

/-- All lists inside a value are short enough for each of their items to have an index. -/
def IsIndexed (value : Json) : Prop :=
  ∀ location items, value.Leads location (.list items) → items.length ≤ greatestIndex + 1

theorem trim_toDigits (n : Nat) : trim (Nat.toDigits 10 n) = Nat.toDigits 10 n := by
  have hdigit : ∀ c ∈ Nat.toDigits 10 n, isBlank c = false := fun _ hc =>
    isBlank_of_isDigit (Nat.isDigit_of_mem_toDigits (by decide) (by decide) hc)
  exact trim_eq_self (fun c hc => hdigit c (List.mem_of_mem_head? hc))
    (fun c hc => hdigit c (List.mem_of_mem_getLast? hc))

theorem followIndices_nil (value : Json) : followIndices [] value = .ok value := by
  rw [followIndices]

theorem followIndices_index (n : Nat) (rest : List Char) (value : Json) :
    followIndices (Selector.chars (.index n) ++ rest) value =
      Selector.select value (.index n) >>= followIndices rest := by
  have hdigits : ∀ c ∈ Nat.toDigits 10 n, decide (c ≠ ']') = true := by
    intro c hc
    have hdigit := Nat.isDigit_of_mem_toDigits (b := 10) (by decide) (by decide) hc
    refine decide_eq_true ?_
    rintro rfl
    exact absurd hdigit (by decide)
  have hstop : ∀ d ∈ (']' :: rest).head?, decide (d ≠ ']') = false := by
    rintro _ ⟨⟩
    decide
  have htake := Lexeme.takeWhile_append_ends hdigits hstop
  have hdrop := Lexeme.dropWhile_append_ends hdigits hstop
  rw [Selector.chars, List.append_assoc, List.cons_append, List.singleton_append, followIndices,
    if_neg (not_not.mpr rfl)]
  split
  · next h => rw [hdrop] at h; cases h
  · next h =>
      rw [hdrop] at h
      cases h
      simp only [htake, trim_toDigits, readNatural?_toDigits, Selector.select]
      by_cases hn : n ≤ greatestIndex
      · simp only [if_pos hn]
        cases atIndex n value <;> rfl
      · simp only [if_neg hn]
        rfl

theorem followSegment_key {name : String} (h : (Selector.key name).IsWritable)
    {indices : List Char} (hindices : ∀ c ∈ indices.head?, c = '[') (value : Json) :
    followSegment value (name.toList ++ indices) =
      Selector.select value (.key name) >>= followIndices indices := by
  obtain ⟨hsome, _, hbracket⟩ := h
  have hname : ∀ c ∈ name.toList, decide (c ≠ '[') = true := fun c hc =>
    decide_eq_true fun hopening => hbracket (hopening ▸ hc)
  have hstop : ∀ d ∈ indices.head?, decide (d ≠ '[') = false := fun d hd =>
    decide_eq_false (not_not.mpr (hindices d hd))
  have hne : name.toList.isEmpty = false :=
    List.isEmpty_eq_false_iff.mpr (String.toList_eq_nil_iff.not.mpr hsome)
  simp only [followSegment, Lexeme.takeWhile_append_ends hname hstop,
    Lexeme.dropWhile_append_ends hname hstop, hne, String.ofList_toList, Bool.false_eq_true,
    if_false, Selector.select]
  cases atKey name value <;> rfl

theorem followSegment_index (n : Nat) (indices : List Char) (value : Json) :
    followSegment value (Selector.chars (.index n) ++ indices) =
      Selector.select value (.index n) >>= followIndices indices := by
  rw [← followIndices_index]
  rfl

theorem point_not_mem_index (n : Nat) : '.' ∉ Selector.chars (.index n) := by
  intro h
  have hdigit : '.' ∈ Nat.toDigits 10 n := by simpa [Selector.chars] using h
  exact absurd (Nat.isDigit_of_mem_toDigits (by decide) (by decide) hdigit) (by decide)

/-- Behind a selector come indices of its segment and then more segments. By induction on the
location: an index goes to the front of the indices, and a key begins a segment with them. -/
theorem follow_behind {location : List Selector} (h : ∀ s ∈ location, s.IsWritable) :
    ∃ indices segments,
      fields '.' (location.flatMap Selector.chars) = indices :: segments ∧
      (∀ c ∈ indices.head?, c = '[') ∧
      ∀ value, followIndices indices value >>= (fun item => segments.foldlM followSegment item) =
        location.foldlM Selector.select value := by
  induction location with
  | nil =>
      refine ⟨[], [], rfl, (fun _ hc => nomatch hc), ?_⟩
      intro value
      rw [followIndices_nil]
      rfl
  | cons s more ih =>
      obtain ⟨hs, hmore⟩ := List.forall_mem_cons.mp h
      obtain ⟨indices, segments, hfields, hindices, hfollow⟩ := ih hmore
      cases s with
      | key name =>
          refine ⟨[], (name.toList ++ indices) :: segments, ?_, (fun _ hc => nomatch hc), ?_⟩
          · rw [List.flatMap_cons, Selector.chars, List.cons_append, fields, if_pos rfl,
              fields_append hs.2.1 hfields]
          · intro value
            rw [followIndices_nil, List.foldlM_cons]
            show ((name.toList ++ indices) :: segments).foldlM followSegment value = _
            rw [List.foldlM_cons, followSegment_key hs hindices, bind_assoc]
            simp only [hfollow]
      | index n =>
          refine ⟨Selector.chars (.index n) ++ indices, segments, ?_, ?_, ?_⟩
          · rw [List.flatMap_cons, fields_append (point_not_mem_index n) hfields]
          · rintro _ ⟨⟩
            rfl
          · intro value
            rw [followIndices_index, List.foldlM_cons, bind_assoc]
            simp only [hfollow]

/-- A path is followed as the location that it is written from. -/
theorem follow_pathOf {location : List Selector} (hsome : location ≠ [])
    (h : ∀ s ∈ location, s.IsWritable) (value : Json) :
    value.follow (pathOf location) = location.foldlM Selector.select value := by
  obtain ⟨s, more, rfl⟩ := List.exists_cons_of_ne_nil hsome
  obtain ⟨hs, hmore⟩ := List.forall_mem_cons.mp h
  obtain ⟨indices, segments, hfields, hindices, hfollow⟩ := follow_behind hmore
  cases s with
  | key name =>
      rw [follow, pathOf, fields_append hs.2.1 hfields, List.foldlM_cons, List.foldlM_cons,
        followSegment_key hs hindices, bind_assoc]
      simp only [hfollow]
  | index n =>
      have hpath : pathOf (.index n :: more) =
          Selector.chars (.index n) ++ more.flatMap Selector.chars := rfl
      rw [follow, hpath, fields_append (point_not_mem_index n) hfields, List.foldlM_cons,
        List.foldlM_cons, followSegment_index, bind_assoc]
      simp only [hfollow]

theorem select_key_ok {value item : Json} {name : String} :
    Selector.select value (.key name) = .ok item ↔
      ∃ members, value = .object members ∧ member? name members = some item := by
  cases value with
  | object members =>
      simp only [Selector.select, atKey]
      cases hmember : member? name members <;> simp [hmember]
  | _ => simp [Selector.select, atKey]

theorem select_index_ok {value item : Json} {n : Nat} :
    Selector.select value (.index n) = .ok item ↔
      n ≤ greatestIndex ∧ ∃ items, value = .list items ∧ items[n]? = some item := by
  by_cases hn : n ≤ greatestIndex
  · cases value with
    | list items =>
        simp only [Selector.select, if_pos hn, atIndex]
        cases hitem : items[n]? <;> simp [hn, hitem]
    | _ => simp [Selector.select, hn, atIndex]
  · simp [Selector.select, hn]

theorem foldlM_select_cons_ok {s : Selector} {more : List Selector} {value found : Json} :
    (s :: more).foldlM Selector.select value = .ok found ↔
      ∃ item, Selector.select value s = .ok item ∧
        more.foldlM Selector.select item = .ok found := by
  rw [List.foldlM_cons]
  cases hselect : Selector.select value s with
  | error e =>
      constructor
      · rintro ⟨⟩
      · rintro ⟨_, ⟨⟩, _⟩
  | ok item =>
      constructor
      · exact fun h => ⟨item, rfl, h⟩
      · rintro ⟨_, ⟨⟩, h⟩
        exact h

/-- Selecting step by step succeeds where the location leads somewhere, if its indices can be
read. -/
theorem foldlM_select_ok {location : List Selector} {value found : Json} :
    location.foldlM Selector.select value = .ok found ↔
      value.Leads location found ∧ ∀ n, .index n ∈ location → n ≤ greatestIndex := by
  induction location generalizing value with
  | nil =>
      constructor
      · rintro ⟨⟩
        exact ⟨.here _, fun _ h => nomatch h⟩
      · rintro ⟨⟨⟩, _⟩
        rfl
  | cons s more ih =>
      simp only [foldlM_select_cons_ok, ih]
      constructor
      · rintro ⟨item, hselect, hleads, hindices⟩
        cases s with
        | key name =>
            obtain ⟨members, rfl, hitem⟩ := select_key_ok.mp hselect
            exact ⟨.key hitem hleads, by simpa using hindices⟩
        | index n =>
            obtain ⟨hn, items, rfl, hitem⟩ := select_index_ok.mp hselect
            exact ⟨.index hitem hleads, by simpa [hn] using hindices⟩
      · rintro ⟨hleads, hindices⟩
        have hmore : ∀ n, .index n ∈ more → n ≤ greatestIndex :=
          fun n hn => hindices n (List.mem_cons_of_mem _ hn)
        cases hleads with
        | key hitem hleads => exact ⟨_, select_key_ok.mpr ⟨_, rfl, hitem⟩, hleads, hmore⟩
        | index hitem hleads =>
            have hn := hindices _ List.mem_cons_self
            exact ⟨_, select_index_ok.mpr ⟨hn, _, rfl, hitem⟩, hleads, hmore⟩

theorem Leads.index_le {value found : Json} {location : List Selector}
    (h : value.Leads location found) (hindexed : value.IsIndexed) :
    ∀ n, .index n ∈ location → n ≤ greatestIndex := by
  induction h with
  | here value => exact fun _ hn => nomatch hn
  | @key members name item found more hitem hmore ih =>
      have hinner : item.IsIndexed := fun location items h => hindexed _ items (.key hitem h)
      intro n hn
      exact ih hinner n (by simpa using hn)
  | @index items m item found more hitem hmore ih =>
      have hinner : item.IsIndexed := fun location items h => hindexed _ items (.index hitem h)
      have hlength := hindexed [] items (.here _)
      obtain ⟨hm, _⟩ := List.getElem?_eq_some_iff.mp hitem
      intro n hn
      cases hn with
      | head => omega
      | tail _ hn => exact ih hinner n hn

end Json

open Json in
theorem paths_address_locations (value : Json) (location : List Selector)
    (hsome : location ≠ []) (hwritable : ∀ s ∈ location, s.IsWritable) :
    (∀ found, value.follow (pathOf location) = .ok found ↔
      value.Leads location found ∧ ∀ n, .index n ∈ location → n ≤ Text.greatestIndex) ∧
    (value.IsIndexed → ∀ found,
      value.follow (pathOf location) = .ok found ↔ value.Leads location found) ∧
    ((∀ found, ¬ value.Leads location found) →
      ∃ fault, value.follow (pathOf location) = .error fault) ∧
    ∀ n, .index n ∈ location → Text.greatestIndex < n →
      ∃ fault, value.follow (pathOf location) = .error fault := by
  have hfollow : ∀ found, value.follow (pathOf location) = .ok found ↔
      value.Leads location found ∧ ∀ n, .index n ∈ location → n ≤ Text.greatestIndex := by
    intro found
    rw [follow_pathOf hsome hwritable]
    exact foldlM_select_ok
  have hrefused : (∀ found, value.follow (pathOf location) ≠ .ok found) →
      ∃ fault, value.follow (pathOf location) = .error fault := by
    intro hnone
    cases hresult : value.follow (pathOf location) with
    | error fault => exact ⟨fault, rfl⟩
    | ok found => exact absurd hresult (hnone found)
  refine ⟨hfollow, ?_, ?_, ?_⟩
  · intro hindexed found
    rw [hfollow]
    exact ⟨And.left, fun hleads => ⟨hleads, hleads.index_le hindexed⟩⟩
  · intro hnowhere
    exact hrefused fun found h => hnowhere found ((hfollow found).mp h).1
  · intro n hn hbeyond
    refine hrefused fun found h => ?_
    have hle := ((hfollow found).mp h).2 n hn
    omega

open Json in
/-- A key may hold a closing bracket. The last index has one digit too many to be read. -/
theorem sample_paths :
    let value : Json := .object [("é]", .list [.null, .bool true])]
    let huge := 18446744073709551616
    pathOf [.key "é]", .index 1] = "é][1]".toList ∧
    value.IsIndexed ∧ value.Leads [.key "é]", .index 1] (.bool true) ∧
    value.follow (pathOf [.key "é]", .index 1]) = .ok (.bool true) ∧
    (∀ found, ¬ value.Leads [.index 1, .key "é]"] found) ∧
    (∃ fault, value.follow (pathOf [.index 1, .key "é]"]) = .error fault) ∧
    Text.greatestIndex < huge ∧
    ∃ fault, value.follow (pathOf [.key "é]", .index huge]) = .error fault := by
  intro value huge
  have hwritable : ∀ n, ∀ s ∈ [Selector.key "é]", .index n], s.IsWritable := by
    simp [Selector.IsWritable]
  have hback : ∀ s ∈ [Selector.index 1, .key "é]"], s.IsWritable := by
    simp [Selector.IsWritable]
  have hindexed : value.IsIndexed := by
    intro location items h
    simp only [value] at h
    cases h with
    | key hmember hmore =>
        simp only [member?, Option.ite_none_right_eq_some, Option.some.injEq] at hmember
        obtain ⟨_, rfl⟩ := hmember
        cases hmore with
        | here => decide
        | index hitem hmore =>
            have hscalar := List.mem_of_getElem? hitem
            simp only [List.mem_cons, List.not_mem_nil, or_false] at hscalar
            rcases hscalar with rfl | rfl <;> cases hmore
  have hleads : value.Leads [.key "é]", .index 1] (.bool true) := .key rfl (.index rfl (.here _))
  have hnowhere : ∀ found, ¬ value.Leads [.index 1, .key "é]"] found := by
    intro found h
    simp only [value] at h
    cases h
  have hthere := paths_address_locations value _ (by simp) (hwritable 1)
  have hwrong := paths_address_locations value _ (by simp) hback
  have hbeyond := paths_address_locations value _ (by simp) (hwritable huge)
  exact ⟨by decide +kernel, hindexed, hleads, (hthere.2.1 hindexed _).mpr hleads, hnowhere,
    hwrong.2.2.1 hnowhere, by decide, hbeyond.2.2.2 huge (by simp) (by decide)⟩

end HttpSuite
