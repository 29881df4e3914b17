import HttpSuite.Proofs.Concatenation
import HttpSuite.Proofs.Positions
import HttpSuite.Proofs.SpanOrder

/-!
The places of a tree's nodes in its source. The nodes of a document stand in the order of its
tokens, a name covers itself, and the part of a source that a block covers is a document of that
block alone: its tokens are read as they are read in the middle of the source, whatever stands
around them.
-/

namespace HttpSuite

open HttpSuite.Text

namespace Lexeme

/-- Some tokens of a source and what they cover. Anything may come behind what the first of them
cover that does not begin differently from what does. -/
theorem all_split {cs : List Char} {xs ys : List Lexeme} (h : all cs = xs ++ ys) (hys : ys ≠ []) :
    ∃ after, cs = covered xs ++ after ∧ all after = ys ∧
      ∀ rest, (∀ d ∈ rest.head?, d ∈ after.head?) → all (covered xs ++ rest) = xs ++ all rest := by
  induction xs generalizing cs with
  | nil => exact ⟨cs, rfl, h, fun _ _ => rfl⟩
  | cons x xs ih =>
      have hmore : xs ++ ys ≠ [] := List.append_ne_nil_of_right_ne_nil xs hys
      cases cs with
      | nil =>
          rw [all] at h
          exact absurd (List.cons.inj h).2.symm hmore
      | cons c cs =>
          rw [all] at h
          split at h
          · exact absurd (List.cons.inj h).2.symm hmore
          · next hfault =>
              obtain ⟨hx, hrest⟩ := List.cons.inj h
              have hread := rereads_next (Bool.eq_false_iff.mpr hfault)
              obtain ⟨y, front, after, rfl, hraw, hends, hagain⟩ := hread
              rw [hagain after hends] at hfault hx hrest
              subst hx
              obtain ⟨after, rfl, hafter, hbehind⟩ := ih hrest
              have hcovered : covered (y :: xs) = c :: (front ++ covered xs) := by
                rw [covered, List.flatMap_cons, hraw]
                rfl
              refine ⟨after, ?_, hafter, ?_⟩
              · rw [hcovered, List.cons_append, List.append_assoc]
              · intro rest hrest'
                have hends' : y.kind.EndsBefore (covered xs ++ rest) := by
                  intro d hd
                  refine hends d ?_
                  cases hxs : covered xs with
                  | nil => rw [hxs] at hd; exact hrest' d hd
                  | cons e es => rw [hxs] at hd; exact hd
                rw [hcovered, List.cons_append, List.append_assoc, all, hagain _ hends',
                  if_neg hfault, hbehind rest hrest']
                rfl

/-- What some tokens in the middle of a source cover has these tokens alone. -/
theorem all_covered {cs : List Char} {xs ys zs : List Lexeme} (h : all cs = xs ++ ys ++ zs)
    (hzs : zs ≠ []) :
    ∃ after, cs = covered xs ++ covered ys ++ after ∧ all (covered ys) = ys ++ all [] := by
  rw [List.append_assoc] at h
  obtain ⟨behind, hcs, hbehind, _⟩ := all_split h (List.append_ne_nil_of_right_ne_nil ys hzs)
  obtain ⟨after, hmiddle, _, halone⟩ := all_split hbehind hzs
  have hnothing := halone [] (fun _ hd => nomatch hd)
  rw [List.append_nil] at hnothing
  exact ⟨after, by rw [hcs, hmiddle, List.append_assoc], hnothing⟩

theorem place_eq_append {start line : Nat} {xs : List Lexeme} {front back : List Token}
    (h : place start line xs = front ++ back) :
    ∃ ys zs, xs = ys ++ zs ∧ front = place start line ys ∧
      back = place (start + byteCount (covered ys)) (line + (covered ys).count '\n') zs := by
  induction xs generalizing start line front with
  | nil =>
      obtain ⟨rfl, rfl⟩ := List.append_eq_nil_iff.mp h.symm
      exact ⟨[], [], rfl, rfl, rfl⟩
  | cons x xs ih =>
      cases front with
      | nil => exact ⟨[], x :: xs, rfl, rfl, h.symm⟩
      | cons t front =>
          obtain ⟨ht, hrest⟩ := List.cons.inj h
          obtain ⟨ys, zs, rfl, rfl, rfl⟩ := ih hrest
          refine ⟨x :: ys, zs, rfl, congrArg (· :: _) ht.symm, ?_⟩
          simp only [covered, List.flatMap_cons, byteCount_append, List.count_append, Nat.add_assoc]

theorem place_last (start line : Nat) (xs : List Lexeme) :
    ∀ t ∈ (place start line xs).getLast?, t.span.stop = start + byteCount (covered xs) := by
  induction xs generalizing start line with
  | nil => intro t ht; cases ht
  | cons x xs ih =>
      intro t ht
      rw [covered, List.flatMap_cons, byteCount_append, ← Nat.add_assoc]
      cases xs with
      | nil => cases ht; rfl
      | cons y ys => exact ih _ _ t ht

/-- The text of a token that is neither a text nor a fault is what it covers. -/
theorem all_text (cs : List Char) :
    ∀ x ∈ all cs, x.kind.isText = false → x.kind.isFault = false →
      x.text = String.ofList x.raw := by
  fun_induction all cs with
  | case1 =>
      intro x hx _ _
      cases List.mem_singleton.mp hx
      rfl
  | case2 c cs _ =>
      intro x hx
      cases List.mem_singleton.mp hx
      exact next_text
  | case3 c cs _ ih =>
      intro x hx
      cases hx with
      | head => exact next_text
      | tail _ hmem => exact ih x hmem

/-- Tokens that cover something each stand in order. -/
theorem place_inOrder (start line : Nat) {xs : List Lexeme} (h : ∀ x ∈ xs, x.raw ≠ []) :
    Span.InOrder start (start + byteCount (covered xs)) ((place start line xs).map Token.span) := by
  induction xs generalizing start line with
  | nil => exact Span.inOrder_nil.mpr (Nat.le_add_right _ _)
  | cons x xs ih =>
      obtain ⟨hx, hxs⟩ := List.forall_mem_cons.mp h
      have hsome := byteCount_pos hx
      have hrest := ih (start + byteCount x.raw) (line + x.raw.count '\n') hxs
      rw [covered, List.flatMap_cons, byteCount_append, ← Nat.add_assoc]
      exact Span.inOrder_cons.mpr ⟨Nat.le_refl _, Nat.lt_add_of_pos_right hsome, hrest⟩

end Lexeme

/-- What stands between two members that a filter keeps. -/
theorem filter_eq_between {α : Type} {p : α → Bool} {items before middle after : List α} {a b : α}
    (h : items.filter p = before ++ (a :: (middle ++ [b])) ++ after) :
    ∃ front inside back, items = front ++ (a :: (inside ++ [b])) ++ back ∧
      (a :: (inside ++ [b])).filter p = a :: (middle ++ [b]) ∧ back.filter p = after := by
  rw [List.append_assoc, List.cons_append, List.append_assoc, List.singleton_append] at h
  obtain ⟨front, rest, rfl, _, hrest⟩ := List.filter_eq_append_iff.mp h
  obtain ⟨gap, rest, rfl, _, ha, hrest⟩ := List.filter_eq_cons_iff.mp hrest
  obtain ⟨inside, rest, rfl, hinside, hrest⟩ := List.filter_eq_append_iff.mp hrest
  obtain ⟨gap', back, rfl, hgap', hb, hback⟩ := List.filter_eq_cons_iff.mp hrest
  refine ⟨front ++ gap, inside ++ gap', back, by simp, ?_, hback⟩
  rw [List.filter_cons_of_pos ha, List.filter_append, List.filter_append, hinside,
    List.filter_eq_nil_iff.mpr hgap', List.filter_cons_of_pos hb]
  simp

namespace Grammar

/-- A block begins with its identifier and ends with its closing brace. -/
theorem IsBlock.between {ts : List Token} {b : Block} (h : IsBlock ts b) :
    ∃ id middle closing, ts = id :: (middle ++ [closing]) ∧
      b.span = ⟨id.span.start, closing.span.stop⟩ := by
  cases h with
  | intro _ _ _ _ _ _ => exact ⟨_, _, _, rfl, rfl⟩

/-- The names of a block are identifiers among its tokens. -/
theorem IsBlock.names {ts : List Token} {b : Block} (h : IsBlock ts b) :
    (∃ t ∈ ts, t.kind = .identifier ∧ b.id = ⟨t.text, t.span⟩) ∧
      ∀ f ∈ b.fields, ∃ t ∈ ts, t.kind = .identifier ∧ f.name = ⟨t.text, t.span⟩ := by
  cases h with
  | intro hid _ _ _ hfields _ =>
      refine ⟨⟨_, List.mem_cons_self, hid, rfl⟩, ?_⟩
      intro f hf
      obtain ⟨before, piece, after, rfl, hpiece⟩ := hfields.split hf
      cases hpiece with
      | intro hname _ _ => exact ⟨_, by simp, hname, rfl⟩

end Grammar

open Grammar Document

theorem Token.ofSource_identifier {source : String} {t : Token} (h : t ∈ ofSource source)
    (hkind : t.kind = .identifier) : t.span.slice source = t.text := by
  obtain ⟨before, x, after, hsource, hx, rfl⟩ := ofSource_split h
  have hidentifier : x.kind = .identifier := hkind
  rw [Span.slice_of_append hsource,
    Lexeme.all_text _ x hx (by rw [hidentifier]; rfl) (by rw [hidentifier]; rfl)]

namespace Document

variable {source : String} {document : Document}

/-- The tokens that make up a document stand in order. -/
theorem significant_inOrder {tokens : List Token} {eof : Token}
    (h : significant source = tokens ++ [eof]) :
    Span.InOrder 0 source.utf8ByteSize (tokens.map Token.span) := by
  obtain ⟨init, last, rest, hall, hcovered, hinit, hlast⟩ := Lexeme.all_shape source.toList
  have horder := Lexeme.place_inOrder 0 1 fun x hx => (hinit x hx).2
  have hsize : 0 + byteCount (Lexeme.covered init) ≤ source.utf8ByteSize := by
    rw [← byteCount_toList, hcovered, hall, Lexeme.covered, Lexeme.covered, List.flatMap_append,
      List.append_assoc, byteCount_append, Nat.zero_add]
    exact Nat.le_add_right _ _
  have hfinal : last.kind.IsFinal := by
    rcases hlast with ⟨rfl, _⟩ | ⟨hfault, _⟩
    · exact .inl rfl
    · exact .inr hfault
  rw [significant, Token.ofSource, hall, Lexeme.place_append, Lexeme.place, Lexeme.place,
    filter_trivia (by exact hfinal)] at h
  obtain ⟨rfl, _⟩ := List.append_inj' h rfl
  exact (horder.sublist (List.filter_sublist.map Token.span)).widen (Nat.le_refl 0) hsize

/-- A block covers the lexemes from its identifier to its closing brace. -/
theorem covered_of_mem {b : Block} (h : parse source = .ok document) (hb : b ∈ document) :
    ∃ xs ys zs, Lexeme.all source.toList = xs ++ ys ++ zs ∧ zs ≠ [] ∧
      b.span = ⟨byteCount (Lexeme.covered xs),
        byteCount (Lexeme.covered xs) + byteCount (Lexeme.covered ys)⟩ ∧
      IsBlock ((Lexeme.place (byteCount (Lexeme.covered xs))
        (1 + (Lexeme.covered xs).count '\n') ys).filter fun t => !t.kind.isTrivia) b := by
  obtain ⟨_, tokens, eof, htokens, _, hdocument⟩ := significant_of_derives (derives_of_parse_ok h)
  obtain ⟨before, piece, after, rfl, hpiece⟩ := hdocument.split hb
  obtain ⟨id, middle, closing, rfl, hspan⟩ := hpiece.between
  rw [List.append_assoc] at htokens
  obtain ⟨front, inside, back, hsource, hkept, hback⟩ := filter_eq_between htokens
  obtain ⟨ws, zs, hall, hfront, rfl⟩ := Lexeme.place_eq_append hsource
  obtain ⟨xs, ys, rfl, rfl, hplace⟩ := Lexeme.place_eq_append hfront.symm
  rw [Nat.zero_add] at hplace
  refine ⟨xs, ys, zs, hall, ?_, ?_, ?_⟩
  · rintro rfl
    exact List.append_ne_nil_of_right_ne_nil after (List.cons_ne_nil eof []) hback.symm
  · have hstart := Lexeme.place_head (byteCount (Lexeme.covered xs))
      (1 + (Lexeme.covered xs).count '\n') ys
    have hstop := Lexeme.place_last (byteCount (Lexeme.covered xs))
      (1 + (Lexeme.covered xs).count '\n') ys
    rw [← hplace] at hstart hstop
    rw [hspan, hstart id rfl, hstop closing (List.getLast?_concat (l := id :: inside))]
  · rw [← hplace, hkept]
    exact hpiece

/-- A source that is read in another place is read where it stands. -/
theorem parse_of_shift {bytes lines : Nat}
    (h : blocks ((significant source).map (Token.shift bytes lines)) = .ok document) :
    ∃ first, parse source = .ok first ∧ first.map (Block.shift bytes) = document := by
  cases hparse : parse source with
  | error e =>
      have hread := read_significant source
      rw [hparse] at hread
      rw [blocks_shift_error bytes lines hread] at h
      cases h
  | ok first =>
      rw [blocks_shift hparse bytes lines] at h
      exact ⟨first, rfl, Except.ok.inj h⟩

theorem parse_slice {b : Block} (h : parse source = .ok document) (hb : b ∈ document) :
    ∃ alone, parse (b.span.slice source) = .ok [alone] ∧ alone.shift b.span.start = b := by
  obtain ⟨xs, ys, zs, hall, hzs, hspan, hblock⟩ := covered_of_mem h hb
  obtain ⟨after, hsource, halone⟩ := Lexeme.all_covered hall hzs
  have hslice : b.span.slice source = String.ofList (Lexeme.covered ys) := by
    rw [hspan]
    exact Span.slice_of_append hsource
  -- Moved to where the block stands, the tokens of its slice are its own with an end behind them.
  have hmoved : blocks ((significant (b.span.slice source)).map
      (Token.shift b.span.start ((Lexeme.covered xs).count '\n'))) = .ok [b] := by
    have hdocument : IsDocument _ [b] := .cons hblock .nil
    rw [significant, Token.ofSource, hslice, String.toList_ofList, ← Lexeme.visible,
      ← Lexeme.visible_shift, Lexeme.visible, halone, Lexeme.place_append, List.filter_append,
      Nat.zero_add, hspan, Lexeme.all, ← List.append_nil (List.filter _ (Lexeme.place _ _ ys))]
    exact blocks_append hdocument (by rfl) []
  obtain ⟨first, hfirst, hshift⟩ := parse_of_shift hmoved
  obtain ⟨alone, rfl, hblock⟩ := List.map_eq_singleton_iff.mp hshift
  exact ⟨alone, hfirst, hblock⟩

end Document

theorem tree_spans_follow_source (source : String) (document : Document)
    (h : parse source = .ok document) :
    Span.InOrder 0 source.utf8ByteSize (document.map Block.span) ∧
    ∀ b ∈ document, b.InOrder ∧
      b.id.span.slice source = b.id.name ∧
      (∀ f ∈ b.fields, f.name.span.slice source = f.name.name) ∧
      ∃ alone, parse (b.span.slice source) = .ok [alone] ∧ alone.shift b.span.start = b := by
  obtain ⟨_, tokens, eof, htokens, _, hdocument⟩ := significant_of_derives (derives_of_parse_ok h)
  have horder := significant_inOrder htokens
  refine ⟨hdocument.inOrder spans_block horder, ?_⟩
  intro b hb
  obtain ⟨before, piece, after, rfl, hpiece⟩ := hdocument.split hb
  have hinside : Span.InOrder 0 source.utf8ByteSize (piece.map Token.span) :=
    horder.sublist (by simp)
  have hnamed : ∀ t ∈ piece, t.kind = .identifier → t.span.slice source = t.text := by
    intro t ht hkind
    have hmem : t ∈ significant source := by
      rw [htokens]
      simp [ht]
    exact Token.ofSource_identifier (List.mem_of_mem_filter hmem) hkind
  obtain ⟨⟨t, ht, hkind, hid⟩, hnames⟩ := hpiece.names
  refine ⟨(hpiece.inOrder hinside).2, ?_, ?_, parse_slice h hb⟩
  · rw [hid]
    exact hnamed t ht hkind
  · intro f hf
    obtain ⟨t, ht, hkind, hname⟩ := hnames f hf
    rw [hname]
    exact hnamed t ht hkind

/-- A heredoc, a comment and characters of two bytes stand before the second block. -/
theorem sample_tree_spans :
    let source :=
      "v \"s\" \"n\" \x7b k = <<<E\né\nE\n\x7d # é\nw \"s\" \"m\" \x7b k = [\"a\", \"b\",] \x7d"
    let first : Block := ⟨⟨"v", ⟨0, 1⟩⟩, ⟨"s", ⟨2, 5⟩⟩, ⟨"n", ⟨6, 9⟩⟩,
      [⟨⟨"k", ⟨12, 13⟩⟩, .text ⟨"é", ⟨16, 25⟩⟩, ⟨12, 25⟩⟩], ⟨0, 27⟩⟩
    let second : Block := ⟨⟨"w", ⟨33, 34⟩⟩, ⟨"s", ⟨35, 38⟩⟩, ⟨"m", ⟨39, 42⟩⟩,
      [⟨⟨"k", ⟨45, 46⟩⟩, .list [⟨"a", ⟨50, 53⟩⟩, ⟨"b", ⟨55, 58⟩⟩] ⟨49, 60⟩, ⟨45, 60⟩⟩], ⟨33, 62⟩⟩
    parse source = .ok [first, second] ∧
    Span.InOrder 0 source.utf8ByteSize [⟨0, 27⟩, ⟨33, 62⟩] ∧
    second.InOrder ∧
    Span.slice source ⟨33, 34⟩ = "w" ∧ Span.slice source ⟨45, 46⟩ = "k" ∧
    ∃ alone, parse (Span.slice source ⟨33, 62⟩) = .ok [alone] ∧ alone.shift 33 = second := by
  intro source first second
  have hparse : parse source = .ok [first, second] := by
    decide +kernel
  obtain ⟨hspans, hblocks⟩ := tree_spans_follow_source source _ hparse
  obtain ⟨hinside, hid, hnames, halone⟩ :=
    hblocks second (List.mem_cons_of_mem _ List.mem_cons_self)
  exact ⟨hparse, hspans, hinside, hid, hnames _ List.mem_cons_self, halone⟩

end HttpSuite
