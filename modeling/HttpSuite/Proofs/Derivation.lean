import HttpSuite.Proofs.Tiling
import HttpSuite.Document.Grammar

/-!
The grammar of block documents as a relation between tokens and the tree that they derive:

  document  =  block*
  block     =  identifier text text '{' field* '}'
  field     =  identifier '=' (text | list)
  list      =  '[' (text (',' text)* ','?)? ']'

Each rule is a predicate of its own and says nothing of how tokens are read. The names and the
literals of a tree are the names and the texts among its tokens, in order.
-/

namespace HttpSuite
namespace Grammar

/-- Tokens that derive a tree. -/
abbrev Production (α : Type) :=
  List Token → α → Prop

/-- Any number of repetitions. -/
inductive Many {α : Type} (rule : Production α) : Production (List α) where
  | nil : Many rule [] []
  | cons {ts rest : List Token} {a : α} {more : List α} (head : rule ts a)
      (tail : Many rule rest more) : Many rule (ts ++ rest) (a :: more)

/-- A string or a heredoc. -/
inductive IsText : Production Literal where
  | token {t : Token} (ht : t.kind.isText = true) : IsText [t] ⟨t.text, t.span⟩

/-- A text after a comma. -/
inductive IsCommaText : Production Literal where
  | intro {comma : Token} {ts : List Token} {item : Literal} (hcomma : comma.kind = .comma)
      (hitem : IsText ts item) : IsCommaText (comma :: ts) item

/-- A comma or nothing. -/
inductive IsOptionalComma : List Token → Prop where
  | absent : IsOptionalComma []
  | present {comma : Token} (hcomma : comma.kind = .comma) : IsOptionalComma [comma]

/-- What stands between the brackets of a list. -/
inductive IsItems : Production (List Literal) where
  | none : IsItems [] []
  | some {first rest final : List Token} {item : Literal} {more : List Literal}
      (hfirst : IsText first item) (hrest : Many IsCommaText rest more)
      (hfinal : IsOptionalComma final) : IsItems (first ++ rest ++ final) (item :: more)

inductive IsValue : Production FieldValue where
  | text {ts : List Token} {item : Literal} (hitem : IsText ts item) : IsValue ts (.text item)
  | list {opening closing : Token} {ts : List Token} {items : List Literal}
      (hopening : opening.kind = .listOpen) (hitems : IsItems ts items)
      (hclosing : closing.kind = .listClose) :
      IsValue (opening :: ts ++ [closing]) (.list items ⟨opening.span.start, closing.span.stop⟩)

inductive IsField : Production Field where
  | intro {name assign : Token} {ts : List Token} {value : FieldValue}
      (hname : name.kind = .identifier) (hassign : assign.kind = .assign)
      (hvalue : IsValue ts value) :
      IsField (name :: assign :: ts)
        ⟨⟨name.text, name.span⟩, value, ⟨name.span.start, value.span.stop⟩⟩

inductive IsBlock : Production Block where
  | intro {id opening closing : Token} {first second ts : List Token} {driver name : Literal}
      {fields : List Field} (hid : id.kind = .identifier) (hdriver : IsText first driver)
      (hname : IsText second name) (hopening : opening.kind = .blockOpen)
      (hfields : Many IsField ts fields) (hclosing : closing.kind = .blockClose) :
      IsBlock (id :: first ++ second ++ opening :: ts ++ [closing])
        ⟨⟨id.text, id.span⟩, driver, name, fields, ⟨id.span.start, closing.span.stop⟩⟩

abbrev IsDocument : Production Document :=
  Many IsBlock

/-- A source that is read to its end without a fault, and whose tokens derive a document where
spaces and comments are left out. -/
def Derives (source : String) (document : Document) : Prop :=
  ∃ tokens last, Token.ofSource source = tokens ++ [last] ∧ last.kind = .endOfInput ∧
    (∀ t ∈ tokens, t.kind.isFault = false) ∧
    IsDocument (tokens.filter fun t => !t.kind.isTrivia) document

end Grammar

/-- Whether a tree keeps the text of a token. -/
def TokenKind.isLeaf (kind : TokenKind) : Bool :=
  kind == .identifier || kind.isText

def Token.leaf (t : Token) : String × Span :=
  (t.text, t.span)

def Identifier.leaf (id : Identifier) : String × Span :=
  (id.name, id.span)

def Literal.leaf (literal : Literal) : String × Span :=
  (literal.text, literal.span)

def FieldValue.leaves : FieldValue → List (String × Span)
  | text literal => [literal.leaf]
  | list items _ => items.map Literal.leaf

def Field.leaves (f : Field) : List (String × Span) :=
  f.name.leaf :: f.value.leaves

def Block.leaves (b : Block) : List (String × Span) :=
  b.id.leaf :: b.driver.leaf :: b.name.leaf :: b.fields.flatMap Field.leaves

/-- The names and the literals of a document from left to right. -/
def Document.leaves (document : Document) : List (String × Span) :=
  document.flatMap Block.leaves

/-- The names and the texts among tokens. -/
def Token.leaves (ts : List Token) : List (String × Span) :=
  (ts.filter fun t => t.kind.isLeaf).map Token.leaf

section Leaves

theorem Token.leaves_append (xs ys : List Token) :
    Token.leaves (xs ++ ys) = Token.leaves xs ++ Token.leaves ys := by
  simp only [Token.leaves, List.filter_append, List.map_append]

theorem Token.leaves_leaf {t : Token} (h : t.kind.isLeaf = true) (ts : List Token) :
    Token.leaves (t :: ts) = t.leaf :: Token.leaves ts := by
  simp only [Token.leaves, List.filter_cons, h, if_true, List.map_cons]

theorem Token.leaves_mark {t : Token} (h : t.kind.isLeaf = false) (ts : List Token) :
    Token.leaves (t :: ts) = Token.leaves ts := by
  simp only [Token.leaves, List.filter_cons, h, Bool.false_eq_true, if_false]

/-- Spaces and comments have no place in a tree. -/
theorem Token.leaves_filter_trivia (ts : List Token) :
    Token.leaves (ts.filter fun t => !t.kind.isTrivia) = Token.leaves ts := by
  have hsame : ∀ t ∈ ts, (t.kind.isLeaf && !t.kind.isTrivia) = t.kind.isLeaf := by
    intro t _
    cases t.kind <;> rfl
  rw [Token.leaves, List.filter_filter, List.filter_congr hsame, Token.leaves]

namespace Grammar

theorem Many.leaves {α : Type} {rule : Production α} {leaves : α → List (String × Span)}
    {ts : List Token} {as : List α} (h : Many rule ts as)
    (hrule : ∀ ts a, rule ts a → Token.leaves ts = leaves a) :
    Token.leaves ts = as.flatMap leaves := by
  induction h with
  | nil => rfl
  | cons head tail ih => rw [Token.leaves_append, hrule _ _ head, ih, List.flatMap_cons]

theorem IsText.leaves {ts : List Token} {item : Literal} (h : IsText ts item) :
    Token.leaves ts = [item.leaf] := by
  cases h with
  | token ht =>
      refine Token.leaves_leaf ?_ []
      rw [TokenKind.isLeaf, ht, Bool.or_true]

theorem IsCommaText.leaves {ts : List Token} {item : Literal} (h : IsCommaText ts item) :
    Token.leaves ts = [item.leaf] := by
  cases h with
  | intro hcomma hitem =>
      rw [Token.leaves_mark (by rw [hcomma]; rfl), hitem.leaves]

theorem IsOptionalComma.leaves {ts : List Token} (h : IsOptionalComma ts) :
    Token.leaves ts = [] := by
  cases h with
  | absent => rfl
  | present hcomma => exact Token.leaves_mark (by rw [hcomma]; rfl) []

theorem IsItems.leaves {ts : List Token} {items : List Literal} (h : IsItems ts items) :
    Token.leaves ts = items.map Literal.leaf := by
  cases h with
  | none => rfl
  | some hfirst hrest hfinal =>
      rw [Token.leaves_append, Token.leaves_append, hfirst.leaves, hfinal.leaves,
        hrest.leaves fun _ _ => IsCommaText.leaves, List.append_nil, List.map_eq_flatMap]
      rfl

theorem IsValue.leaves {ts : List Token} {value : FieldValue} (h : IsValue ts value) :
    Token.leaves ts = value.leaves := by
  cases h with
  | text hitem => exact hitem.leaves
  | list hopening hitems hclosing =>
      rw [List.cons_append, Token.leaves_mark (by rw [hopening]; rfl), Token.leaves_append,
        hitems.leaves, Token.leaves_mark (by rw [hclosing]; rfl)]
      exact List.append_nil _

theorem IsField.leaves {ts : List Token} {f : Field} (h : IsField ts f) :
    Token.leaves ts = f.leaves := by
  cases h with
  | intro hname hassign hvalue =>
      rw [Token.leaves_leaf (by rw [hname]; rfl), Token.leaves_mark (by rw [hassign]; rfl),
        hvalue.leaves]
      rfl

theorem IsBlock.leaves {ts : List Token} {b : Block} (h : IsBlock ts b) :
    Token.leaves ts = b.leaves := by
  cases h with
  | intro hid hdriver hname hopening hfields hclosing =>
      simp only [List.cons_append, List.append_assoc]
      rw [Token.leaves_leaf (by rw [hid]; rfl), Token.leaves_append, hdriver.leaves,
        Token.leaves_append, hname.leaves, Token.leaves_mark (by rw [hopening]; rfl),
        Token.leaves_append, hfields.leaves fun _ _ => IsField.leaves,
        Token.leaves_mark (by rw [hclosing]; rfl)]
      exact congrArg (fun fields => _ :: _ :: _ :: fields) (List.append_nil _)

/-- A document keeps each name and each text of its tokens once and in order. -/
theorem IsDocument.leaves {ts : List Token} {document : Document} (h : IsDocument ts document) :
    Token.leaves ts = document.leaves :=
  Many.leaves h fun _ _ => IsBlock.leaves

end Grammar
end Leaves

namespace Grammar

theorem IsBlock.closed {ts : List Token} {b : Block} (h : IsBlock ts b) :
    ∃ front closing, ts = front ++ [closing] ∧ closing.kind = .blockClose := by
  cases h with
  | intro _ _ _ _ _ hclosing => exact ⟨_, _, rfl, hclosing⟩

/-- The tokens of a document that has any end with a closing brace. -/
theorem IsDocument.closed {ts : List Token} {document : Document} (h : IsDocument ts document) :
    ts = [] ∨ ∃ front closing, ts = front ++ [closing] ∧ closing.kind = .blockClose := by
  induction h with
  | nil => exact .inl rfl
  | cons head tail ih =>
      rcases ih with rfl | ⟨front, closing, rfl, hclosing⟩
      · rw [List.append_nil]
        exact .inr head.closed
      · exact .inr ⟨_, closing, (List.append_assoc _ front [closing]).symm, hclosing⟩

theorem IsItems.single {ts : List Token} {item : Literal} (h : IsText ts item) :
    IsItems ts [item] := by
  have hitems := IsItems.some h .nil .absent
  rwa [List.append_nil, List.append_nil] at hitems

/-- A comma ends a list or stands before more items. -/
theorem IsItems.cons {first rest : List Token} {comma : Token} {item : Literal}
    {more : List Literal} (hfirst : IsText first item) (hcomma : comma.kind = .comma)
    (hrest : IsItems rest more) : IsItems (first ++ comma :: rest) (item :: more) := by
  cases hrest with
  | none =>
      have hitems := IsItems.some hfirst .nil (.present hcomma)
      rwa [List.append_nil] at hitems
  | some hsecond hmore hfinal =>
      have hitems := IsItems.some hfirst (.cons (.intro hcomma hsecond) hmore) hfinal
      simpa only [List.append_assoc, List.cons_append] using hitems

end Grammar
end HttpSuite
