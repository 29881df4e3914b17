import HttpSuite.Document.Cursor
import HttpSuite.Proofs.EarliestError

/-!
Where tokens and errors stand. A cursor that counts lines as it goes, a character at a time or
many at once, places each token where the characters before it put it: at their number of bytes,
on the line after all of their line breaks. An error stands at a token of its source, so it has a
place there, and never at the token that stands for what comes after the last.
-/

namespace HttpSuite

open HttpSuite.Text Document

/-- What a cursor counts is what stands before it. -/
theorem Cursor.tokens_eq (cs : List Char) (offset line : Nat) :
    tokens ⟨cs, offset, line⟩ = Lexeme.place offset line (Lexeme.all cs) := by
  fun_induction Lexeme.all cs generalizing offset line with
  | case1 =>
      rw [tokens]
      exact dif_pos (.inl rfl)
  | case2 c cs hfault =>
      rw [tokens, scan_cons]
      exact dif_pos (.inr hfault)
  | case3 c cs hfault ih =>
      rw [tokens, scan_cons]
      refine (dif_neg (not_or.mpr ⟨Lexeme.next_kind c cs, hfault⟩)).trans ?_
      exact congrArg (_ :: ·) (ih _ _)

theorem Cursor.ofSource_tokens (source : String) :
    (ofSource source).tokens = Token.ofSource source :=
  tokens_eq source.toList 0 1

namespace Token

/-- A token stands between what comes before it in its source and what follows. -/
theorem ofSource_split {source : String} {t : Token} (h : t ∈ ofSource source) :
    ∃ before x after, source.toList = before ++ x.raw ++ after ∧ x ∈ Lexeme.all source.toList ∧
      t = ⟨x.kind, x.text, ⟨byteCount before, byteCount before + byteCount x.raw⟩,
        1 + before.count '\n'⟩ := by
  obtain ⟨_, _, rest, _, hcovered, _⟩ := ofSource_shape source
  obtain ⟨earlier, x, later, hsplit, rfl⟩ := Lexeme.mem_place h
  refine ⟨Lexeme.covered earlier, x, Lexeme.covered later ++ rest, ?_, ?_, ?_⟩
  · rw [hcovered, hsplit]
    simp [Lexeme.covered]
  · rw [hsplit]
    exact List.mem_append_right _ List.mem_cons_self
  · rw [Nat.zero_add]

theorem ofSource_line {source : String} {t : Token} (h : t ∈ ofSource source) :
    t.line = 1 + (Span.slice source ⟨0, t.span.start⟩).toList.count '\n' := by
  obtain ⟨before, x, after, hsource, _, rfl⟩ := ofSource_split h
  have hbefore : source.toList = [] ++ before ++ (x.raw ++ after) := by
    rw [hsource, List.nil_append, List.append_assoc]
  have hslice := Span.slice_of_append hbefore
  rw [byteCount, Nat.zero_add] at hslice
  rw [hslice, String.toList_ofList]

theorem ofSource_within {source : String} {t : Token} (h : t ∈ ofSource source) :
    t.span.start ≤ t.span.stop ∧ t.span.stop ≤ source.utf8ByteSize := by
  obtain ⟨before, x, after, hsource, _, rfl⟩ := ofSource_split h
  rw [← byteCount_toList, hsource, byteCount_append, byteCount_append]
  exact ⟨Nat.le_add_right _ _, Nat.le_add_right _ _⟩

theorem ofSource_aligned {source : String} {t : Token} (h : t ∈ ofSource source) :
    t.span.IsAligned source := by
  obtain ⟨before, x, after, hsource, _, rfl⟩ := ofSource_split h
  exact Span.isAligned_of_append hsource

end Token

namespace Document
namespace Expecting

variable (p : Expecting) (t : Token)

theorem refuse_span : (p.refuse t).span = t.span := by
  unfold refuse
  split <;> rfl

theorem refuse_line : (p.refuse t).line = t.line := by
  unfold refuse
  split <;> rfl

theorem found_of_refuse {wanted : Wanted} {found : Token}
    (h : (p.refuse t).cause = .unexpected wanted found) : found = t := by
  unfold refuse at h
  split at h
  · cases h
  · cases h
    rfl

end Expecting

/-- The error of a source is the refusal of one of its tokens. -/
theorem refused_of_parse_error {source : String} {e : SyntaxError}
    (h : parse source = .error e) : ∃ t ∈ Token.ofSource source, ∃ p : Expecting, e = p.refuse t := by
  have hread := read_significant source
  rw [h] at hread
  obtain ⟨earlier, t, later, p, hsplit, _, _, he⟩ := Expecting.read_error hread
  refine ⟨t, ?_, p, he⟩
  have hmem : t ∈ significant source := by
    rw [hsplit]
    exact List.mem_append_right _ List.mem_cons_self
  exact List.mem_of_mem_filter hmem

end Document

theorem positions_are_counted (source : String) :
    (Cursor.ofSource source).tokens = Token.ofSource source ∧
    (∀ t ∈ Token.ofSource source,
      t.line = 1 + (Span.slice source ⟨0, t.span.start⟩).toList.count '\n') ∧
    ∀ e, parse source = .error e →
      (∃ t ∈ Token.ofSource source, e.span = t.span ∧ e.line = t.line ∧
        ∀ wanted found, e.cause = .unexpected wanted found → found = t) ∧
      e.span.IsAligned source ∧ e.span.start ≤ e.span.stop ∧
      e.span.stop ≤ source.utf8ByteSize ∧
      e.line ≠ 0 ∧ ∀ wanted, e.cause ≠ .unexpected wanted absent := by
  refine ⟨Cursor.ofSource_tokens source, fun t ht => Token.ofSource_line ht, ?_⟩
  intro e he
  obtain ⟨t, ht, p, rfl⟩ := refused_of_parse_error he
  have hline : t.line ≠ 0 := by
    rw [Token.ofSource_line ht]
    omega
  rw [p.refuse_span, p.refuse_line]
  refine ⟨⟨t, ht, rfl, rfl, fun _ _ => p.found_of_refuse t⟩, Token.ofSource_aligned ht,
    (Token.ofSource_within ht).1, (Token.ofSource_within ht).2, hline, ?_⟩
  intro wanted hcause
  have habsent := p.found_of_refuse t hcause
  rw [← habsent] at hline
  exact hline rfl

/-- A heredoc with a character of two bytes stands before the token that is refused. -/
theorem sample_positions :
    parse "a \"b\" <<<E\né\n\nE\n=" = .error (.unexpected .blockOpen ⟨.assign, "=", ⟨17, 18⟩, 5⟩) ∧
    ⟨.assign, "=", ⟨17, 18⟩, 5⟩ ∈ (Cursor.ofSource "a \"b\" <<<E\né\n\nE\n=").tokens ∧
    (5 : Nat) = 1 + (Span.slice "a \"b\" <<<E\né\n\nE\n=" ⟨0, 17⟩).toList.count '\n' ∧
    (∃ t ∈ Token.ofSource "a \"b\" <<<E\né\n\nE\n=", t.span = ⟨17, 18⟩ ∧ t.line = 5) ∧
    Span.IsAligned "a \"b\" <<<E\né\n\nE\n=" ⟨17, 18⟩ := by
  have hparse : parse "a \"b\" <<<E\né\n\nE\n=" =
      .error (.unexpected .blockOpen ⟨.assign, "=", ⟨17, 18⟩, 5⟩) := by
    decide +kernel
  have hmem : ⟨.assign, "=", ⟨17, 18⟩, 5⟩ ∈ Token.ofSource "a \"b\" <<<E\né\n\nE\n=" := by
    decide +kernel
  obtain ⟨hcursor, hlines, herrors⟩ :=
    positions_are_counted "a \"b\" <<<E\né\n\nE\n="
  obtain ⟨⟨t, ht, hspan, hline, _⟩, haligned, _⟩ := herrors _ hparse
  refine ⟨hparse, ?_, hlines _ hmem, ⟨t, ht, hspan.symm, hline.symm⟩, haligned⟩
  rw [hcursor]
  exact hmem

end HttpSuite
