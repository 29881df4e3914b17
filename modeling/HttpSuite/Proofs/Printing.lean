import HttpSuite.Proofs.LineBreak
import HttpSuite.Proofs.Recognition

/-!
Blocks as they are printed. A block whose names are identifiers and whose texts need no escapes is
read back as one block with the same names and texts. In the printed form a space stands behind
each name, and every other token ends by itself, so each part is read alike wherever it stands and
whatever comes behind it.
-/

namespace HttpSuite

open HttpSuite.Text

namespace Text

/-- Unicode's control characters. -/
def isControl (c : Char) : Bool :=
  c.toNat < 0x20 || (0x7F ≤ c.toNat && c.toNat ≤ 0x9F)

theorem isControl_of_isPlain {c : Char} (h : isPlain c = true) : isControl c = false := by
  have hescaped : ∀ n < 0xA0, isControl (Char.ofNat n) = true → isPlain (Char.ofNat n) = false := by
    decide +kernel
  rw [Bool.eq_false_iff]
  intro hcontrol
  have hlow : c.toNat < 0xA0 := by
    simp only [isControl, Bool.or_eq_true, Bool.and_eq_true, decide_eq_true_eq] at hcontrol
    omega
  have hplain := hescaped c.toNat hlow
  rw [Char.ofNat_toNat, h] at hplain
  exact Bool.true_eq_false.mp (hplain hcontrol)

theorem ne_of_isPlain {c d : Char} (h : isPlain c = true) (hd : isPlain d = false) : c ≠ d := by
  rintro rfl
  rw [h] at hd
  cases hd

theorem quote_plain {cs : List Char} (h : ∀ c ∈ cs, isPlain c = true) :
    quote cs = '"' :: (cs ++ ['"']) := by
  have hescape : cs.flatMap escape = cs.flatMap fun c => [c] :=
    List.flatMap_congr fun c hc => eq_of_beq (h c hc)
  rw [quote, hescape, List.flatMap_singleton', List.cons_append]

end Text

/-- An identifier. -/
def IsName (name : String) : Prop :=
  name ≠ "" ∧ ∀ c ∈ name.toList, Lexeme.isIdentifierChar c = true

/-- A text whose characters all stand for themselves between quotes. -/
def IsPlainText (text : String) : Prop :=
  ∀ c ∈ text.toList, isPlain c = true

instance (name : String) : Decidable (IsName name) :=
  decidable_of_iff (name ≠ "" ∧ name.toList.all Lexeme.isIdentifierChar = true)
    (and_congr_right fun _ => List.all_eq_true)

instance (text : String) : Decidable (IsPlainText text) :=
  decidable_of_iff (text.toList.all isPlain = true) List.all_eq_true

def FieldValue.literals : FieldValue → List Literal
  | text literal => [literal]
  | list items _ => items

structure Block.IsPlain (b : Block) : Prop where
  id : IsName b.id.name
  driver : IsPlainText b.driver.text
  name : IsPlainText b.name.text
  fields : ∀ f ∈ b.fields, IsName f.name.name
  values : ∀ f ∈ b.fields, ∀ literal ∈ f.value.literals, IsPlainText literal.text

section Unplaced

/-- Takes the place of spans where they do not count. -/
def Span.nowhere : Span :=
  ⟨0, 0⟩

def Identifier.unplaced (id : Identifier) : Identifier :=
  { id with span := .nowhere }

def Literal.unplaced (literal : Literal) : Literal :=
  { literal with span := .nowhere }

def FieldValue.unplaced : FieldValue → FieldValue
  | text literal => text literal.unplaced
  | list items _ => list (items.map Literal.unplaced) .nowhere

def Field.unplaced (f : Field) : Field :=
  ⟨f.name.unplaced, f.value.unplaced, .nowhere⟩

/-- The block without its places: two blocks are equal up to spans if these are equal. -/
def Block.unplaced (b : Block) : Block :=
  ⟨b.id.unplaced, b.driver.unplaced, b.name.unplaced, b.fields.map Field.unplaced, .nowhere⟩

end Unplaced

namespace Lexeme

/-- What characters are read as, wherever they stand and whatever comes behind them. -/
def Reads (cs : List Char) (holds : List Token → Prop) : Prop :=
  ∀ start line rest, ∃ ts, holds ts ∧
    visible start line (cs ++ rest) =
      ts ++ visible (start + byteCount cs) (line + cs.count '\n') rest

section Reads

variable {cs ds : List Char} {holds holds' : List Token → Prop}

theorem Reads.imp (h : Reads cs holds) (himp : ∀ ts, holds ts → holds' ts) : Reads cs holds' := by
  intro start line rest
  obtain ⟨ts, hts, hread⟩ := h start line rest
  exact ⟨ts, himp ts hts, hread⟩

theorem Reads.append (h : Reads cs holds) (h' : Reads ds holds') :
    Reads (cs ++ ds) fun ts => ∃ front back, ts = front ++ back ∧ holds front ∧ holds' back := by
  intro start line rest
  obtain ⟨front, hfront, hread⟩ := h start line (ds ++ rest)
  obtain ⟨back, hback, hread'⟩ := h' (start + byteCount cs) (line + cs.count '\n') rest
  refine ⟨front ++ back, ⟨front, back, rfl, hfront, hback⟩, ?_⟩
  rw [List.append_assoc, hread, hread', byteCount_append, List.count_append, ← List.append_assoc,
    Nat.add_assoc, Nat.add_assoc]

theorem reads_nil : Reads [] (· = []) :=
  fun _ _ _ => ⟨[], rfl, rfl⟩

theorem reads_space : Reads [' '] (· = []) := by
  intro start line rest
  refine ⟨[], rfl, ?_⟩
  exact visible_spaces (List.forall_mem_singleton.mpr rfl) start line rest

theorem Reads.space_cons (h : Reads cs holds) : Reads (' ' :: cs) holds := by
  refine (reads_space.append h).imp ?_
  rintro _ ⟨_, back, rfl, rfl, hback⟩
  exact hback

theorem Reads.space_concat (h : Reads cs holds) : Reads (cs ++ [' ']) holds := by
  refine (h.append reads_space).imp ?_
  rintro _ ⟨front, _, rfl, hfront, rfl⟩
  rwa [List.append_nil]

/-- One token, by its kind and its text. -/
def IsToken (kind : TokenKind) (text : String) (ts : List Token) : Prop :=
  ∃ t, ts = [t] ∧ t.kind = kind ∧ t.text = text

theorem visible_token {c : Char} {cs rest : List Char} {x : Lexeme} (h : next c cs = (x, rest))
    (hfault : x.kind.isFault = false) (htrivia : x.kind.isTrivia = false) (start line : Nat) :
    visible start line (c :: cs) =
      ⟨x.kind, x.text, ⟨start, start + byteCount x.raw⟩, line⟩ ::
        visible (start + byteCount x.raw) (line + x.raw.count '\n') rest := by
  rw [visible_next (by rw [h]; exact hfault), h]
  simp [place, htrivia]

/-- A token that a scanner takes whatever comes behind it. -/
theorem reads_token {c : Char} {kind : TokenKind} {text : String}
    (hfault : kind.isFault = false) (htrivia : kind.isTrivia = false)
    (h : ∀ rest, next c (cs ++ rest) = (⟨kind, text, c :: cs⟩, rest)) :
    Reads (c :: cs) (IsToken kind text) := by
  intro start line rest
  exact ⟨[_], ⟨_, rfl, rfl, rfl⟩, visible_token (h rest) hfault htrivia start line⟩

theorem next_identifier {c : Char} (h : isIdentifierChar c = true) (cs : List Char) :
    next c cs = run .identifier isIdentifierChar c cs := by
  unfold next
  split
  case h_10 =>
      have hspace : ¬ isSpace c = true := by
        intro hspace
        rcases isSpace_cases hspace with rfl | rfl | rfl | rfl <;> revert h <;> decide
      rw [if_neg hspace, if_pos h]
  all_goals exact absurd h (by decide)

/-- An identifier ends before a space. -/
theorem reads_name {name : String} (h : IsName name) :
    Reads (name.toList ++ [' ']) (IsToken .identifier name) := by
  obtain ⟨c, cs, hname⟩ := List.exists_cons_of_ne_nil (String.toList_eq_nil_iff.not.mpr h.1)
  have hchars := h.2
  rw [hname] at hchars
  obtain ⟨hc, hcs⟩ := List.forall_mem_cons.mp hchars
  intro start line rest
  have hstop : ∀ d ∈ (' ' :: rest).head?, isIdentifierChar d = false := by
    rintro _ ⟨⟩
    decide
  have hnext : next c (cs ++ ' ' :: rest) =
      (⟨.identifier, name, name.toList⟩, ' ' :: rest) := by
    rw [next_identifier hc, run, takeWhile_append_ends hcs hstop, dropWhile_append_ends hcs hstop,
      ← hname, plain, String.ofList_toList]
  have hspace : ∀ d ∈ [' '], isSpace d = true := List.forall_mem_singleton.mpr rfl
  refine ⟨[⟨.identifier, name, ⟨start, start + byteCount name.toList⟩, line⟩],
    ⟨_, rfl, rfl, rfl⟩, ?_⟩
  rw [List.append_assoc, List.singleton_append, byteCount_append, List.count_append,
    ← Nat.add_assoc, ← Nat.add_assoc, ← visible_spaces hspace _ _ rest]
  conv => lhs; rw [hname]
  exact visible_token hnext rfl rfl start line

theorem reads_quote {text : String} (h : IsPlainText text) :
    Reads (quote text.toList) (IsToken .string text) := by
  have hstring : ∀ c ∈ text.toList, isStringChar c = true := by
    intro c hc
    have hquote := ne_of_isPlain (h c hc) (d := '"') (by decide)
    have hreturn := ne_of_isPlain (h c hc) (d := '\r') (by decide)
    have hnewline := ne_of_isPlain (h c hc) (d := '\n') (by decide)
    simp [isStringChar, isNewline, hquote, hreturn, hnewline]
  rw [quote_plain h]
  refine reads_token rfl rfl fun rest => ?_
  have hclosed := quotedText_closed hstring rest
  rw [String.ofList_toList] at hclosed
  rw [List.append_assoc]
  exact hclosed

end Reads

end Lexeme

namespace Grammar

open Lexeme

/-- Tokens derive a tree up to the places of its nodes. -/
def Yields {α : Type} (rule : Production α) (unplaced : α → α) (a : α) (ts : List Token) : Prop :=
  ∃ b, rule ts b ∧ unplaced b = unplaced a

theorem reads_text {literal : Literal} (h : IsPlainText literal.text) :
    Reads (quote literal.text.toList) (Yields IsText Literal.unplaced literal) := by
  refine (reads_quote h).imp ?_
  rintro _ ⟨t, rfl, hkind, htext⟩
  refine ⟨⟨t.text, t.span⟩, .token (by rw [hkind]; rfl), ?_⟩
  simp only [Literal.unplaced, htext]

theorem reads_many {α : Type} {rule : Production α} {unplaced : α → α} {chars : α → List Char}
    {as : List α} (h : ∀ a ∈ as, Reads (chars a) (Yields rule unplaced a)) :
    Reads (as.flatMap chars) (Yields (Many rule) (List.map unplaced) as) := by
  induction as with
  | nil =>
      refine reads_nil.imp ?_
      rintro _ rfl
      exact ⟨[], .nil, rfl⟩
  | cons a as ih =>
      obtain ⟨ha, has⟩ := List.forall_mem_cons.mp h
      rw [List.flatMap_cons]
      refine (ha.append (ih has)).imp ?_
      rintro _ ⟨front, back, rfl, ⟨b, hb, hsame⟩, ⟨bs, hbs, hsames⟩⟩
      exact ⟨b :: bs, .cons hb hbs, congrArg₂ List.cons hsame hsames⟩

theorem reads_items {items : List Literal} (h : ∀ literal ∈ items, IsPlainText literal.text) :
    Reads (renderTexts items) (Yields IsItems (List.map Literal.unplaced) items) := by
  fun_induction renderTexts items with
  | case1 =>
      refine reads_nil.imp ?_
      rintro _ rfl
      exact ⟨[], .none, rfl⟩
  | case2 item =>
      refine (reads_text (h item List.mem_cons_self)).imp ?_
      rintro ts ⟨b, hb, hsame⟩
      exact ⟨[b], .single hb, congrArg (fun item => [item]) hsame⟩
  | case3 item more _ ih =>
      obtain ⟨hitem, hmore⟩ := List.forall_mem_cons.mp h
      have hcomma : Reads [','] (IsToken .comma ",") := reads_token rfl rfl fun _ => rfl
      refine (((reads_text hitem).append hcomma.space_concat).append (ih hmore)).imp ?_
      rintro _ ⟨_, back, rfl, ⟨front, _, rfl, ⟨b, hb, hsame⟩, comma, rfl, hkind, _⟩,
        bs, hbs, hsames⟩
      refine ⟨b :: bs, ?_, congrArg₂ List.cons hsame hsames⟩
      rw [List.append_assoc]
      exact .cons hb hkind hbs

theorem reads_value {value : FieldValue}
    (h : ∀ literal ∈ value.literals, IsPlainText literal.text) :
    Reads value.chars (Yields IsValue FieldValue.unplaced value) := by
  cases value with
  | text literal =>
      refine (reads_text (h literal List.mem_cons_self)).imp ?_
      rintro ts ⟨b, hb, hsame⟩
      exact ⟨.text b, .text hb, congrArg FieldValue.text hsame⟩
  | list items span =>
      have hopening : Reads ['['] (IsToken .listOpen "[") := reads_token rfl rfl fun _ => rfl
      have hclosing : Reads [']'] (IsToken .listClose "]") := reads_token rfl rfl fun _ => rfl
      refine ((hopening.append (reads_items h)).append hclosing).imp ?_
      rintro _ ⟨_, _, rfl, ⟨_, ts, rfl, ⟨opening, rfl, hopen, _⟩, bs, hbs, hsames⟩,
        closing, rfl, hclose, _⟩
      exact ⟨_, .list hopen hbs hclose,
        congrArg (fun items => FieldValue.list items .nowhere) hsames⟩

theorem reads_field {f : Field} (hname : IsName f.name.name)
    (hvalue : ∀ literal ∈ f.value.literals, IsPlainText literal.text) :
    Reads f.chars (Yields IsField Field.unplaced f) := by
  have hassign : Reads ['='] (IsToken .assign "=") := reads_token rfl rfl fun _ => rfl
  have hchars : f.chars = (f.name.name.toList ++ [' ']) ++ ((['='] ++ [' ']) ++ f.value.chars) := by
    simp [Field.chars]
  rw [hchars]
  refine ((reads_name hname).append (hassign.space_concat.append (reads_value hvalue))).imp ?_
  rintro _ ⟨_, _, rfl, ⟨name, rfl, hidentifier, htext⟩, _, ts, rfl, ⟨assign, rfl, hkind, _⟩,
    value, hts, hsame⟩
  refine ⟨_, .intro hidentifier hkind hts, ?_⟩
  simp only [Field.unplaced, Identifier.unplaced, htext, hsame]

theorem reads_block {b : Block} (h : b.IsPlain) :
    Reads b.chars (Yields IsBlock Block.unplaced b) := by
  have hopening : Reads ['{'] (IsToken .blockOpen "\x7b") := reads_token rfl rfl fun _ => rfl
  have hclosing : Reads ['}'] (IsToken .blockClose "\x7d") := reads_token rfl rfl fun _ => rfl
  have hfields : Reads (b.fields.flatMap fun f => ' ' :: f.chars)
      (Yields (Many IsField) (List.map Field.unplaced) b.fields) :=
    reads_many fun f hf => (reads_field (h.fields f hf) (h.values f hf)).space_cons
  have hchars : b.chars = (b.id.name.toList ++ [' ']) ++ (quote b.driver.text.toList ++
      (' ' :: quote b.name.text.toList ++ (' ' :: ['{'] ++
        ((b.fields.flatMap fun f => ' ' :: f.chars) ++ ' ' :: ['}'])))) := by
    simp [Block.chars]
  rw [hchars]
  refine ((reads_name h.id).append ((reads_text h.driver).append
    ((reads_text h.name).space_cons.append (hopening.space_cons.append
      (hfields.append hclosing.space_cons))))).imp ?_
  rintro _ ⟨_, _, rfl, ⟨id, rfl, hid, hidtext⟩, first, _, rfl, ⟨driver, hdriver, hdriver'⟩,
    second, _, rfl, ⟨name, hname, hname'⟩, _, _, rfl, ⟨opening, rfl, hopen, _⟩,
    ts, _, rfl, ⟨fields, hts, hfields'⟩, closing, rfl, hclose, _⟩
  have hblock := IsBlock.intro hid hdriver hname hopen hts hclose
  refine ⟨_, by simpa using hblock, ?_⟩
  simp only [Block.unplaced, Identifier.unplaced, hidtext, hdriver', hname', hfields']

end Grammar

theorem printed_blocks_read_back :
    (∀ c, isPlain c = true → c ≠ '"' ∧ c ≠ '\\' ∧ isControl c = false) ∧
    ∀ b : Block, b.IsPlain →
      ∃ b', Document.parse b.render = .ok [b'] ∧ b'.unplaced = b.unplaced := by
  refine ⟨?_, ?_⟩
  · intro c hc
    exact ⟨ne_of_isPlain hc (by decide), ne_of_isPlain hc (by decide), isControl_of_isPlain hc⟩
  · intro b hb
    obtain ⟨ts, ⟨b', hblock, hsame⟩, hread⟩ := Grammar.reads_block hb 0 1 []
    refine ⟨b', ?_, hsame⟩
    rw [List.append_nil, Lexeme.visible_nil] at hread
    have hdocument : Grammar.IsDocument ts [b'] := by
      have hmany : Grammar.Many Grammar.IsBlock (ts ++ []) [b'] := .cons hblock .nil
      rwa [List.append_nil] at hmany
    have hparse : Document.parse b.render = Document.blocks (Lexeme.visible 0 1 b.chars) := by
      rw [Block.render, Document.parse, Token.ofSource, String.toList_ofList, Lexeme.visible]
    rw [hparse, hread]
    exact Document.blocks_append hdocument rfl []

/-- A text, an empty list and a list of two stand in the block, whose name holds what outside of
quotes would be a comment or a brace. -/
theorem sample_printed_block :
    let text (s : String) : Literal := ⟨s, ⟨7, 9⟩⟩
    let b : Block := ⟨⟨"resource", ⟨3, 4⟩⟩, text "", text "# é \x7d", [
      ⟨⟨"_1", ⟨5, 5⟩⟩, .text (text "<<<E"), ⟨1, 2⟩⟩,
      ⟨⟨"steps", ⟨2, 1⟩⟩, .list [] ⟨0, 8⟩, ⟨6, 6⟩⟩,
      ⟨⟨"Z", ⟨2, 1⟩⟩, .list [text "'", text ","] ⟨0, 8⟩, ⟨6, 6⟩⟩], ⟨0, 1⟩⟩
    b.render = "resource \"\" \"# é \x7d\" \x7b _1 = \"<<<E\" steps = [] Z = [\"'\", \",\"] \x7d" ∧
    b.IsPlain ∧
    (∃ b', Document.parse b.render = .ok [b'] ∧ b'.unplaced = b.unplaced) ∧
    isPlain 'é' = true ∧ 'é' ≠ '"' ∧ 'é' ≠ '\\' ∧ isControl 'é' = false := by
  intro text b
  have hplain : b.IsPlain := by
    constructor <;> decide +kernel
  have hletter : isPlain 'é' = true := by decide +kernel
  exact ⟨by decide +kernel, hplain, printed_blocks_read_back.2 b hplain, hletter,
    printed_blocks_read_back.1 'é' hletter⟩

end HttpSuite
