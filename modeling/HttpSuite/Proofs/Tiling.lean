import HttpSuite.Proofs.Scanners
import Mathlib.Data.String.Basic

/-!
The tokens of a source cover it without gaps. A lexeme keeps the characters that it covers, and
the characters of all lexemes are a prefix of the source; only a fault leaves a rest. Positions
are byte counts of what comes before, so every span starts and stops between two characters and
holds exactly the characters of its lexeme.
-/

namespace HttpSuite

open HttpSuite.Text

/-- The part of a text that a span covers. -/
def Span.slice (source : String) (s : Span) : String :=
  String.Pos.Raw.extract source ⟨s.start⟩ ⟨s.stop⟩

/-- A span whose bounds do not divide a character. -/
def Span.IsAligned (source : String) (s : Span) : Prop :=
  String.Pos.Raw.IsValid source ⟨s.start⟩ ∧ String.Pos.Raw.IsValid source ⟨s.stop⟩

/-- What ends a stream of tokens. -/
def TokenKind.IsFinal (kind : TokenKind) : Prop :=
  kind = .endOfInput ∨ kind.isFault = true

theorem byteCount_eq_utf8Len (cs : List Char) : byteCount cs = String.utf8Len cs := by
  induction cs with
  | nil => rfl
  | cons c cs ih => rw [byteCount, ih, String.utf8Len_cons, Nat.add_comm]

theorem byteCount_toList (source : String) : byteCount source.toList = source.utf8ByteSize := by
  rw [byteCount_eq_utf8Len, ← String.utf8ByteSize_ofList, String.ofList_toList]

theorem byteCount_pos {cs : List Char} (h : cs ≠ []) : 0 < byteCount cs := by
  obtain ⟨c, rest, rfl⟩ := List.exists_cons_of_ne_nil h
  have hc := c.utf8Size_pos
  exact Nat.add_pos_left hc _

/-- Byte counts of prefixes are boundaries of characters. -/
theorem isValid_byteCount {source : String} {before after : List Char}
    (h : source.toList = before ++ after) :
    String.Pos.Raw.IsValid source ⟨byteCount before⟩ := by
  apply String.Pos.Raw.isValid_iff_exists_append.mpr
  refine ⟨String.ofList before, String.ofList after, ?_, ?_⟩
  · rw [← String.ofList_append, ← h, String.ofList_toList]
  · rw [String.rawEndPos_ofList, byteCount_eq_utf8Len]

section Located

variable {source : String} {before covered after : List Char}

theorem Span.slice_of_append (h : source.toList = before ++ covered ++ after) :
    Span.slice source ⟨byteCount before, byteCount before + byteCount covered⟩ =
      String.ofList covered := by
  have hsource : source = String.ofList (before ++ covered ++ after) := by
    rw [← h, String.ofList_toList]
  rw [hsource, slice, byteCount_eq_utf8Len, byteCount_eq_utf8Len]
  exact String.extract_of_valid before covered after

theorem Span.isAligned_of_append (h : source.toList = before ++ covered ++ after) :
    Span.IsAligned source ⟨byteCount before, byteCount before + byteCount covered⟩ := by
  refine ⟨isValid_byteCount (h.trans (List.append_assoc _ _ _)), ?_⟩
  rw [← byteCount_append]
  exact isValid_byteCount h

end Located

namespace Lexeme

/-- The characters that lexemes cover. -/
def covered (xs : List Lexeme) : List Char :=
  xs.flatMap raw

theorem place_append (start line : Nat) (xs ys : List Lexeme) :
    place start line (xs ++ ys) =
      place start line xs ++
        place (start + byteCount (covered xs)) (line + (covered xs).count '\n') ys := by
  induction xs generalizing start line with
  | nil => rfl
  | cons x xs ih =>
      simp only [List.cons_append, place, covered, List.flatMap_cons, byteCount_append,
        List.count_append, ih, Nat.add_assoc]

theorem place_map_kind (start line : Nat) (xs : List Lexeme) :
    (place start line xs).map Token.kind = xs.map kind := by
  induction xs generalizing start line with
  | nil => rfl
  | cons x xs ih => simp only [place, List.map_cons, ih]

theorem place_head (start line : Nat) (xs : List Lexeme) :
    ∀ t ∈ (place start line xs).head?, t.span.start = start := by
  intro t ht
  cases xs with
  | nil => cases ht
  | cons x xs => cases ht; rfl

theorem place_chain (start line : Nat) (xs : List Lexeme) :
    (place start line xs).IsChain fun a b => a.span.stop = b.span.start := by
  induction xs generalizing start line with
  | nil => exact .nil
  | cons x xs ih =>
      cases xs with
      | nil => exact .singleton _
      | cons y ys => exact .cons_cons rfl (ih _ _)

/-- A token of a source stands where the lexemes before it end. -/
theorem mem_place {start line : Nat} {xs : List Lexeme} {t : Token}
    (h : t ∈ place start line xs) :
    ∃ earlier x later, xs = earlier ++ x :: later ∧
      t = ⟨x.kind, x.text, ⟨start + byteCount (covered earlier),
        start + byteCount (covered earlier) + byteCount x.raw⟩,
        line + (covered earlier).count '\n'⟩ := by
  induction xs generalizing start line with
  | nil => exact absurd h List.not_mem_nil
  | cons x xs ih =>
      rcases List.mem_cons.mp h with rfl | hmem
      · exact ⟨[], x, xs, rfl, rfl⟩
      · obtain ⟨earlier, y, later, rfl, rfl⟩ := ih hmem
        refine ⟨x :: earlier, y, later, rfl, ?_⟩
        simp only [covered, List.flatMap_cons, byteCount_append, List.count_append, Nat.add_assoc]

theorem place_slices {source : String} {before after : List Char} (line : Nat)
    (xs : List Lexeme) (h : source.toList = before ++ covered xs ++ after) :
    (place (byteCount before) line xs).map (fun t => t.span.slice source) =
      xs.map fun x => String.ofList x.raw := by
  induction xs generalizing before line with
  | nil => rfl
  | cons x xs ih =>
      have hhere : source.toList = before ++ x.raw ++ (covered xs ++ after) := by
        simpa [covered] using h
      have hrest : source.toList = (before ++ x.raw) ++ covered xs ++ after := by
        simpa [covered] using h
      have htail := ih (line + x.raw.count '\n') hrest
      rw [byteCount_append] at htail
      simp only [place, List.map_cons, htail, Span.slice_of_append hhere]

/-- The lexemes of a source: some that cover a character each and are not final, and a final
one. Either it is the end of the input, and all of the source is covered, or it is a fault. -/
theorem all_shape (cs : List Char) :
    ∃ init last rest, all cs = init ++ [last] ∧ cs = covered (all cs) ++ rest ∧
      (∀ x ∈ init, ¬ x.kind.IsFinal ∧ x.raw ≠ []) ∧
      (last = ⟨.endOfInput, "", []⟩ ∧ rest = [] ∨
        last.kind.isFault = true ∧ last.raw ≠ []) := by
  fun_induction all cs with
  | case1 => exact ⟨[], _, [], rfl, rfl, fun _ h => absurd h List.not_mem_nil, .inl ⟨rfl, rfl⟩⟩
  | case2 c cs hfault =>
      have hraw : c :: cs = covered [(next c cs).1] ++ (next c cs).2 := by
        rw [covered, List.flatMap_singleton, next_raw]
      exact ⟨[], _, (next c cs).2, rfl, hraw, fun _ h => absurd h List.not_mem_nil,
        .inr ⟨hfault, next_raw_ne_nil c cs⟩⟩
  | case3 c cs hfault ih =>
      obtain ⟨init, last, rest, hall, hcovered, hinit, hlast⟩ := ih
      refine ⟨(next c cs).1 :: init, last, rest, congrArg _ hall, ?_, ?_, hlast⟩
      · rw [covered, List.flatMap_cons, List.append_assoc, ← covered, ← hcovered, next_raw]
      · intro x hx
        rcases List.mem_cons.mp hx with rfl | hmem
        · exact ⟨not_or.mpr ⟨next_kind c cs, hfault⟩, next_raw_ne_nil c cs⟩
        · exact hinit x hmem

theorem all_raw_ne_nil {cs : List Char} {x : Lexeme} (hx : x ∈ all cs)
    (hkind : x.kind ≠ .endOfInput) : x.raw ≠ [] := by
  obtain ⟨init, last, rest, hall, _, hinit, hlast⟩ := all_shape cs
  rw [hall, List.mem_append, List.mem_singleton] at hx
  rcases hx with hmem | rfl
  · exact (hinit x hmem).2
  · rcases hlast with ⟨rfl, _⟩ | ⟨_, hraw⟩
    · exact absurd rfl hkind
    · exact hraw

theorem join_raw (xs : List Lexeme) :
    String.join (xs.map fun x => String.ofList x.raw) = String.ofList (covered xs) := by
  induction xs with
  | nil => rfl
  | cons x xs ih =>
      rw [List.map_cons, String.join_cons, ih, ← String.ofList_append]
      rfl

end Lexeme

namespace Token

open Lexeme

/-- The last token of a source is its end or a fault, and no other token is either. -/
theorem ofSource_shape (source : String) :
    ∃ init last rest, ofSource source = init ++ [last] ∧
      source.toList = covered (all source.toList) ++ rest ∧
      (∀ t ∈ init, ¬ t.kind.IsFinal) ∧
      (last.kind = .endOfInput ∧ rest = [] ∧
          last.span = ⟨source.utf8ByteSize, source.utf8ByteSize⟩ ∨
        last.kind.isFault = true) := by
  obtain ⟨init, last, rest, hall, hcovered, hinit, hlast⟩ := all_shape source.toList
  let start := byteCount (covered init)
  let line := 1 + (covered init).count '\n'
  refine ⟨place 0 1 init, ⟨last.kind, last.text, ⟨start, start + byteCount last.raw⟩, line⟩, rest,
    ?_, hcovered, ?_, ?_⟩
  · rw [ofSource, hall, place_append, Nat.zero_add]
    rfl
  · intro t ht
    have hkind := List.mem_map_of_mem (f := Token.kind) ht
    rw [place_map_kind] at hkind
    obtain ⟨x, hx, hxt⟩ := List.mem_map.mp hkind
    rw [← hxt]
    exact (hinit x hx).1
  · rcases hlast with ⟨rfl, rfl⟩ | ⟨hfault, _⟩
    · have hinitial : covered init = source.toList := by
        rw [hcovered, hall]
        simp [covered]
      have hstart : start = source.utf8ByteSize := by
        simp only [start, hinitial, byteCount_toList]
      exact .inl ⟨rfl, rfl, congrArg (fun n => Span.mk n n) hstart⟩
    · exact .inr hfault

section Slices

variable {source : String} {rest : List Char}
  (hcovered : source.toList = covered (all source.toList) ++ rest)

include hcovered

theorem ofSource_slices :
    String.join ((ofSource source).map fun t => t.span.slice source) ++ String.ofList rest =
      source := by
  have hstart : source.toList = [] ++ covered (all source.toList) ++ rest := hcovered
  have hslices := place_slices 1 (all source.toList) hstart
  rw [ofSource, ← byteCount, hslices, join_raw, ← String.ofList_append, ← hcovered,
    String.ofList_toList]

theorem ofSource_mem {t : Token} (h : t ∈ ofSource source) :
    t.span.IsAligned source ∧ (t.kind ≠ .endOfInput → t.span.start < t.span.stop) := by
  obtain ⟨earlier, x, later, hsplit, rfl⟩ := mem_place h
  simp only [Nat.zero_add]
  refine ⟨?_, ?_⟩
  · have hhere : source.toList = covered earlier ++ x.raw ++ (covered later ++ rest) := by
      rw [hcovered, hsplit]
      simp [covered]
    exact Span.isAligned_of_append hhere
  · intro hx
    have hmem : x ∈ all source.toList := by
      rw [hsplit]
      exact List.mem_append_right _ List.mem_cons_self
    have hpos := byteCount_pos (all_raw_ne_nil hmem hx)
    exact Nat.lt_add_of_pos_right hpos

end Slices
end Token

theorem tokens_tile_source (source : String) :
    ∃ init last, Token.ofSource source = init ++ [last] ∧
      last.kind.IsFinal ∧ (∀ t ∈ init, ¬ t.kind.IsFinal) ∧
      (∀ t ∈ (Token.ofSource source).head?, t.span.start = 0) ∧
      (Token.ofSource source).IsChain (fun a b => a.span.stop = b.span.start) ∧
      (∀ t ∈ Token.ofSource source,
        t.span.IsAligned source ∧ (t.kind ≠ .endOfInput → t.span.start < t.span.stop)) ∧
      (last.kind = .endOfInput →
        last.span = ⟨source.utf8ByteSize, source.utf8ByteSize⟩ ∧
        String.join ((Token.ofSource source).map fun t => t.span.slice source) = source) ∧
      (last.kind ≠ .endOfInput → ∃ rest,
        String.join ((Token.ofSource source).map fun t => t.span.slice source) ++ rest =
          source) := by
  obtain ⟨init, last, rest, htokens, hcovered, hinit, hlast⟩ := Token.ofSource_shape source
  have hslices := Token.ofSource_slices hcovered
  refine ⟨init, last, htokens, ?_, hinit, Lexeme.place_head 0 1 _, Lexeme.place_chain 0 1 _,
    fun t ht => Token.ofSource_mem hcovered ht, ?_, ?_⟩
  · rcases hlast with ⟨hend, _⟩ | hfault
    · exact .inl hend
    · exact .inr hfault
  · intro hend
    rcases hlast with ⟨_, rfl, hspan⟩ | hfault
    · rw [String.ofList_nil, String.append_empty] at hslices
      exact ⟨hspan, hslices⟩
    · rw [hend] at hfault
      cases hfault
  · intro _
    exact ⟨String.ofList rest, hslices⟩

end HttpSuite
