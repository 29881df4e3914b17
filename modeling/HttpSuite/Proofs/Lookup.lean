import HttpSuite.Json.Slices

/-!
Paths compose. A point between two paths parts their segments whatever they hold, so the second
is followed from where the first leads, and a fault in either of them is one of both. Paths that
are not well formed are no exception, and none takes a lookup out of bounds or round without end.
-/

namespace HttpSuite
namespace Json

open HttpSuite.Text

theorem follow_append (value : Json) (front rest : List Char) :
    value.follow (front ++ '.' :: rest) = value.follow front >>= fun item => item.follow rest := by
  rw [follow, fields_append_mark, List.foldlM_append]
  rfl

theorem follow_append_ok {value found : Json} {front rest : List Char} :
    value.follow (front ++ '.' :: rest) = .ok found ↔
      ∃ item, value.follow front = .ok item ∧ item.follow rest = .ok found := by
  rw [follow_append]
  cases value.follow front with
  | error fault =>
      constructor
      · intro h
        cases h
      · intro ⟨_, h, _⟩
        cases h
  | ok item =>
      constructor
      · intro h
        exact ⟨item, rfl, h⟩
      · intro ⟨_, hitem, h⟩
        cases hitem
        exact h

end Json

/-- The lookup by offsets ends as the path is followed, so it neither cuts out of bounds nor runs
out of rounds. -/
theorem paths_compose (value : Json) (p q : String) :
    (∀ found, value.follow (p ++ "." ++ q).toList = .ok found ↔
      ∃ item, value.follow p.toList = .ok item ∧ item.follow q.toList = .ok found) ∧
    ((∃ fault, value.follow (p ++ "." ++ q).toList = .error fault) ↔
      ∀ item found, value.follow p.toList = .ok item → item.follow q.toList ≠ .ok found) ∧
    ∀ (path : String) (rounds : Nat), path.length ≤ rounds →
      Json.lookup rounds value path.toList = (value.follow path.toList).mapError .refused := by
  have hpath : (p ++ "." ++ q).toList = p.toList ++ '.' :: q.toList := by
    rw [String.toList_append, String.toList_append, List.append_assoc]
    rfl
  have hok : ∀ found, value.follow (p ++ "." ++ q).toList = .ok found ↔
      ∃ item, value.follow p.toList = .ok item ∧ item.follow q.toList = .ok found := by
    intro found
    rw [hpath]
    exact Json.follow_append_ok
  refine ⟨hok, ?_, ?_⟩
  · constructor
    · intro ⟨fault, hfault⟩ item found hitem hfound
      have hvalue := (hok found).mpr ⟨item, hitem, hfound⟩
      rw [hfault] at hvalue
      cases hvalue
    · intro hnone
      cases hvalue : value.follow (p ++ "." ++ q).toList with
      | error fault => exact ⟨fault, rfl⟩
      | ok found =>
          obtain ⟨item, hitem, hfound⟩ := (hok found).mp hvalue
          exact absurd hfound (hnone item found hitem)
  · intro path rounds hrounds
    exact Json.lookup_eq (String.length_toList ▸ hrounds) value

theorem sample_paths_compose :
    let inner := Json.object [("b", .null)]
    let value := Json.object [("a", inner)]
    value.follow "a".toList = .ok inner ∧ inner.follow "b".toList = .ok .null ∧
      value.follow ("a" ++ "." ++ "b").toList = .ok .null ∧ "a.b".length ≤ 3 ∧
      Json.lookup 3 value "a.b".toList = .ok .null := by
  intro inner value
  have hfront : value.follow "a".toList = .ok inner := by cbv
  have hrest : inner.follow "b".toList = .ok .null := by cbv
  have hlength : "a.b".length ≤ 3 := by decide
  obtain ⟨hok, _, hlookup⟩ := paths_compose value "a" "b"
  have hjoined := (hok .null).mpr ⟨inner, hfront, hrest⟩
  refine ⟨hfront, hrest, hjoined, hlength, ?_⟩
  rw [hlookup "a.b" 3 hlength]
  exact congrArg (Except.mapError Json.Halt.refused) hjoined

/-- The point stands inside brackets, so the first path is not closed. -/
example : Json.follow (.list [.list [.null]]) "[0.0]".toList = .error .unclosedIndex := by
  cbv

end HttpSuite
