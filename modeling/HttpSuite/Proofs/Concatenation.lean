import HttpSuite.Proofs.Expectation
import HttpSuite.Proofs.LineBreak

/-!
Two sources with a line break between them. If the first is a document, the second is read as if
it stood alone. The blocks of both come out in order, and an error in the second is the same but
for the place where it stands.
-/

namespace HttpSuite

open HttpSuite.Text

def Identifier.shift (bytes : Nat) (id : Identifier) : Identifier :=
  { id with span := id.span.shift bytes }

def Literal.shift (bytes : Nat) (literal : Literal) : Literal :=
  { literal with span := literal.span.shift bytes }

def FieldValue.shift (bytes : Nat) : FieldValue → FieldValue
  | text literal => text (literal.shift bytes)
  | list items span => list (items.map (Literal.shift bytes)) (span.shift bytes)

theorem FieldValue.span_shift (bytes : Nat) (value : FieldValue) :
    (value.shift bytes).span = value.span.shift bytes := by
  cases value <;> rfl

def Field.shift (bytes : Nat) (f : Field) : Field :=
  ⟨f.name.shift bytes, f.value.shift bytes, f.span.shift bytes⟩

def Block.shift (bytes : Nat) (b : Block) : Block :=
  ⟨b.id.shift bytes, b.driver.shift bytes, b.name.shift bytes, b.fields.map (Field.shift bytes),
    b.span.shift bytes⟩

namespace Grammar

variable (bytes lines : Nat)

theorem Many.shift {α : Type} {rule : Production α} {move : α → α}
    (hrule : ∀ ts a, rule ts a → rule (ts.map (Token.shift bytes lines)) (move a))
    {ts : List Token} {values : List α} (h : Many rule ts values) :
    Many rule (ts.map (Token.shift bytes lines)) (values.map move) := by
  induction h with
  | nil => exact .nil
  | cons head tail ih =>
      rw [List.map_append]
      exact .cons (hrule _ _ head) ih

theorem IsText.shift {ts : List Token} {item : Literal} (h : IsText ts item) :
    IsText (ts.map (Token.shift bytes lines)) (item.shift bytes) := by
  cases h with
  | token ht => exact .token (t := Token.shift bytes lines _) ht

theorem IsCommaText.shift {ts : List Token} {item : Literal} (h : IsCommaText ts item) :
    IsCommaText (ts.map (Token.shift bytes lines)) (item.shift bytes) := by
  cases h with
  | intro hcomma hitem => exact .intro hcomma (hitem.shift bytes lines)

theorem IsOptionalComma.shift {ts : List Token} (h : IsOptionalComma ts) :
    IsOptionalComma (ts.map (Token.shift bytes lines)) := by
  cases h with
  | absent => exact .absent
  | present hcomma => exact .present hcomma

theorem IsItems.shift {ts : List Token} {items : List Literal} (h : IsItems ts items) :
    IsItems (ts.map (Token.shift bytes lines)) (items.map (Literal.shift bytes)) := by
  cases h with
  | none => exact .none
  | some hfirst hrest hfinal =>
      rw [List.map_append, List.map_append]
      exact .some (hfirst.shift bytes lines)
        (hrest.shift bytes lines fun _ _ h => h.shift bytes lines) (hfinal.shift bytes lines)

theorem IsValue.shift {ts : List Token} {value : FieldValue} (h : IsValue ts value) :
    IsValue (ts.map (Token.shift bytes lines)) (value.shift bytes) := by
  cases h with
  | text hitem => exact .text (hitem.shift bytes lines)
  | list hopening hitems hclosing =>
      rw [List.map_append, List.map_cons]
      exact .list hopening (hitems.shift bytes lines) hclosing

theorem IsField.shift {ts : List Token} {field : Field} (h : IsField ts field) :
    IsField (ts.map (Token.shift bytes lines)) (field.shift bytes) := by
  cases h with
  | @intro name assign ts value hname hassign hvalue =>
      have hfield : IsField (name.shift bytes lines :: assign.shift bytes lines ::
          ts.map (Token.shift bytes lines)) _ :=
        .intro hname hassign (hvalue.shift bytes lines)
      rw [FieldValue.span_shift] at hfield
      exact hfield

theorem IsBlock.shift {ts : List Token} {block : Block} (h : IsBlock ts block) :
    IsBlock (ts.map (Token.shift bytes lines)) (block.shift bytes) := by
  cases h with
  | intro hid hdriver hname hopening hfields hclosing =>
      simp only [List.map_append, List.map_cons]
      exact .intro hid (hdriver.shift bytes lines) (hname.shift bytes lines) hopening
        (hfields.shift bytes lines fun _ _ h => h.shift bytes lines) hclosing

theorem IsDocument.shift {ts : List Token} {document : Document} (h : IsDocument ts document) :
    IsDocument (ts.map (Token.shift bytes lines)) (document.map (Block.shift bytes)) :=
  Many.shift bytes lines (fun _ _ h => h.shift bytes lines) h

end Grammar

def SyntaxError.Cause.shift (bytes lines : Nat) : Cause → Cause
  | lexical fault => lexical fault
  | unexpected wanted found => unexpected wanted (found.shift bytes lines)

def SyntaxError.shift (bytes lines : Nat) (e : SyntaxError) : SyntaxError :=
  ⟨e.cause.shift bytes lines, e.span.shift bytes, e.line + lines⟩

namespace SyntaxError

variable (bytes lines : Nat) (e : SyntaxError)

theorem isLexical_shift : (e.shift bytes lines).IsLexical ↔ e.IsLexical := by
  obtain ⟨cause, span, line⟩ := e
  cases cause with
  | lexical fault => exact ⟨fun _ => ⟨fault, rfl⟩, fun _ => ⟨fault, rfl⟩⟩
  | unexpected wanted found =>
      exact iff_of_false (fun ⟨_, h⟩ => nomatch h) (fun ⟨_, h⟩ => nomatch h)

theorem message_shift : (e.shift bytes lines).message = e.message := by
  obtain ⟨cause, span, line⟩ := e
  cases cause <;> rfl

theorem help?_shift : (e.shift bytes lines).help? = e.help? := by
  obtain ⟨cause, span, line⟩ := e
  cases cause <;> rfl

end SyntaxError

namespace Document

open Grammar Expecting

section Shift

variable (bytes lines : Nat)

theorem after?_shift (p : Expecting) (t : Token) : p.after? (t.shift bytes lines) = p.after? t := by
  cases p <;> rfl

theorem refuse_shift (p : Expecting) (t : Token) :
    p.refuse (t.shift bytes lines) = (p.refuse t).shift bytes lines := by
  obtain ⟨kind, text, span, line⟩ := t
  cases kind <;> rfl

/-- Where tokens stand matters only for where an error is reported. -/
theorem read_shift (p : Expecting) (ts : List Token) :
    p.read (ts.map (Token.shift bytes lines)) =
      match p.read ts with
      | .error e => .error (e.shift bytes lines)
      | .ok q => .ok q := by
  induction ts generalizing p with
  | nil => rfl
  | cons t ts ih =>
      simp only [List.map_cons, Expecting.read, after?_shift]
      cases p.after? t with
      | none => exact congrArg _ (refuse_shift bytes lines p t)
      | some q => exact ih q

theorem blocks_shift_error {ts : List Token} {e : SyntaxError} (h : block.read ts = .error e) :
    blocks (ts.map (Token.shift bytes lines)) = .error (e.shift bytes lines) := by
  have hblocks := read_blocks (ts.map (Token.shift bytes lines))
  rw [read_append, read_shift, h] at hblocks
  cases hdocument : blocks (ts.map (Token.shift bytes lines)) with
  | error e' => rw [hdocument] at hblocks; cases hblocks; rfl
  | ok document => rw [hdocument] at hblocks; cases hblocks

end Shift

/-- A source that is read to its end splits into tokens of its own and those of what follows a
line break. -/
theorem significant_newline {a : String} (h : ∀ t ∈ Token.ofSource a, t.kind.isFault = false) :
    ∃ front eof, significant a = front ++ [eof] ∧
      ∀ b, significant (a ++ "\n" ++ b) = front ++ (significant b).map
        (Token.shift (a.utf8ByteSize + 1) (a.toList.count '\n' + 1)) := by
  have hall : ∀ x ∈ Lexeme.all a.toList, x.kind.isFault = false := by
    intro x hx
    have hkind := List.mem_map_of_mem (f := Lexeme.kind) hx
    rw [← Lexeme.place_map_kind 0 1] at hkind
    obtain ⟨t, ht, hsame⟩ := List.mem_map.mp hkind
    rw [← hsame]
    exact h t ht
  obtain ⟨front, eof, hfront, hmore⟩ := Lexeme.visible_newline hall 0 1
  refine ⟨front, eof, hfront, ?_⟩
  intro b
  have hchars : (a ++ "\n" ++ b).toList = a.toList ++ '\n' :: b.toList := by
    simp
  rw [significant, Token.ofSource, hchars]
  refine (hmore b.toList).trans ?_
  rw [Lexeme.visible_shift, byteCount_toList]
  rfl

theorem significant_of_derives {source : String} {document : Document}
    (h : Derives source document) :
    (∀ t ∈ Token.ofSource source, t.kind.isFault = false) ∧
      ∃ tokens eof, significant source = tokens ++ [eof] ∧ eof.kind = .endOfInput ∧
        IsDocument tokens document := by
  obtain ⟨tokens, eof, hsource, heof, hfaultless, hdocument⟩ := h
  refine ⟨?_, tokens.filter fun t => !t.kind.isTrivia, eof, ?_, heof, hdocument⟩
  · rw [hsource, List.forall_mem_append, List.forall_mem_singleton]
    exact ⟨hfaultless, by rw [heof]; rfl⟩
  · rw [significant, hsource, filter_trivia (.inl heof)]

theorem blocks_shift {source : String} {document : Document} (h : parse source = .ok document)
    (bytes lines : Nat) :
    blocks ((significant source).map (Token.shift bytes lines)) =
      .ok (document.map (Block.shift bytes)) := by
  obtain ⟨_, tokens, eof, htokens, heof, hdocument⟩ :=
    significant_of_derives (derives_of_parse_ok h)
  rw [htokens, List.map_append]
  exact blocks_append (hdocument.shift bytes lines) (t := eof.shift bytes lines) heof []

/-- What comes after a document and a line break is read as it is read alone. -/
theorem parse_newline {a : String} {first : Document} (h : parse a = .ok first) (b : String) :
    parse (a ++ "\n" ++ b) =
      match blocks ((significant b).map
        (Token.shift (a.utf8ByteSize + 1) (a.toList.count '\n' + 1))) with
      | .error e => .error e
      | .ok more => .ok (first ++ more) := by
  obtain ⟨hfaultless, tokens, eof, htokens, _, hdocument⟩ :=
    significant_of_derives (derives_of_parse_ok h)
  obtain ⟨front, eof', hfront, hmore⟩ := significant_newline hfaultless
  obtain ⟨rfl, _⟩ := List.append_inj' (htokens.symm.trans hfront) rfl
  show blocks (significant (a ++ "\n" ++ b)) = _
  rw [hmore]
  exact blocks_document hdocument _

end Document

open Document in
theorem parse_concatenation (a b : String) (first : Document) (h : parse a = .ok first) :
    (∀ second, parse b = .ok second → parse (a ++ "\n" ++ b) =
      .ok (first ++ second.map (Block.shift (a.utf8ByteSize + 1)))) ∧
    ∀ e, parse b = .error e → ∃ e', parse (a ++ "\n" ++ b) = .error e' ∧
      (e'.IsLexical ↔ e.IsLexical) ∧ e'.message = e.message ∧ e'.help? = e.help? ∧
      e'.span = e.span.shift (a.utf8ByteSize + 1) ∧
      e'.line = e.line + (1 + a.toList.count '\n') := by
  rw [parse_newline h b, Nat.add_comm 1]
  let bytes := a.utf8ByteSize + 1
  let lines := a.toList.count '\n' + 1
  refine ⟨?_, ?_⟩
  · intro second hsecond
    rw [blocks_shift hsecond bytes lines]
  · intro e he
    have hread := read_significant b
    rw [he] at hread
    refine ⟨e.shift bytes lines, ?_, e.isLexical_shift bytes lines, e.message_shift bytes lines,
      e.help?_shift bytes lines, rfl, rfl⟩
    rw [blocks_shift_error bytes lines hread]

open Document in
/-- The first source ends in a comment whose last character takes two bytes. -/
theorem sample_concatenation :
    parse "v \"s\" \"n\" \x7b\x7d # é" =
      .ok [⟨⟨"v", ⟨0, 1⟩⟩, ⟨"s", ⟨2, 5⟩⟩, ⟨"n", ⟨6, 9⟩⟩, [], ⟨0, 12⟩⟩] ∧
    parse "w \"s\" \"m\" \x7b\x7d" =
      .ok [⟨⟨"w", ⟨0, 1⟩⟩, ⟨"s", ⟨2, 5⟩⟩, ⟨"m", ⟨6, 9⟩⟩, [], ⟨0, 12⟩⟩] ∧
    parse ("v \"s\" \"n\" \x7b\x7d # é" ++ "\n" ++ "w \"s\" \"m\" \x7b\x7d") =
      .ok [⟨⟨"v", ⟨0, 1⟩⟩, ⟨"s", ⟨2, 5⟩⟩, ⟨"n", ⟨6, 9⟩⟩, [], ⟨0, 12⟩⟩,
        ⟨⟨"w", ⟨18, 19⟩⟩, ⟨"s", ⟨20, 23⟩⟩, ⟨"m", ⟨24, 27⟩⟩, [], ⟨18, 30⟩⟩] ∧
    parse "\n=" = .error (.unexpected .topLevelBlock ⟨.assign, "=", ⟨1, 2⟩, 2⟩) ∧
    ∃ e, parse ("v \"s\" \"n\" \x7b\x7d # é" ++ "\n" ++ "\n=") = .error e ∧
      ¬ e.IsLexical ∧ e.message = "Expected a block identifier, found '='" ∧
      e.span = ⟨19, 20⟩ ∧ e.line = 3 := by
  have hfirst : parse "v \"s\" \"n\" \x7b\x7d # é" =
      .ok [⟨⟨"v", ⟨0, 1⟩⟩, ⟨"s", ⟨2, 5⟩⟩, ⟨"n", ⟨6, 9⟩⟩, [], ⟨0, 12⟩⟩] := by
    decide +kernel
  have hsecond : parse "w \"s\" \"m\" \x7b\x7d" =
      .ok [⟨⟨"w", ⟨0, 1⟩⟩, ⟨"s", ⟨2, 5⟩⟩, ⟨"m", ⟨6, 9⟩⟩, [], ⟨0, 12⟩⟩] := by
    decide +kernel
  have herror : parse "\n=" = .error (.unexpected .topLevelBlock ⟨.assign, "=", ⟨1, 2⟩, 2⟩) := by
    decide +kernel
  obtain ⟨e, he, hlexical, hmessage, _, hspan, hline⟩ :=
    (parse_concatenation _ _ _ hfirst).2 _ herror
  refine ⟨hfirst, hsecond, (parse_concatenation _ _ _ hfirst).1 _ hsecond, herror, e, he, ?_,
    hmessage, hspan, hline⟩
  intro h
  obtain ⟨fault, hfault⟩ := hlexical.mp h
  cases hfault

end HttpSuite
