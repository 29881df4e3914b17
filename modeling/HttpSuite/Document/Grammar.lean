import HttpSuite.Document.Block
import HttpSuite.Document.Fault
import HttpSuite.Document.Lexeme

/-!
Reading blocks from tokens:

  document  =  block*
  block     =  identifier text text '{' field* '}'
  field     =  identifier '=' (text | list)
  list      =  '[' (text (',' text)* ','?)? ']'

where a text is a string or a heredoc. Each rule takes its tokens from the front and gives the
rest. The first token that cannot go on is reported, a fault in the text like any other token
at the place where it stands.
-/

namespace HttpSuite
namespace Document

abbrev Rule (α : Type) :=
  List Token → Except SyntaxError (α × List Token)

/-- Stands for a token after the last one. The tokens of a source end with the end of input or
with a fault, and no rule reads past either. -/
def absent : Token :=
  ⟨.endOfInput, "", ⟨0, 0⟩, 0⟩

/-- Takes the next token. A fault in the text is an error here. -/
def take : Rule Token
  | [] => .ok (absent, [])
  | t :: ts =>
    match t.kind with
    | .fault cause => .error ⟨.lexical cause, t.span, t.line⟩
    | _ => .ok (t, ts)

/-- Takes a token of the wanted kind. -/
def expect (wanted : Wanted) (holds : TokenKind → Bool) : Rule Token := fun ts =>
  match take ts with
  | .error e => .error e
  | .ok (t, rest) => if holds t.kind then .ok (t, rest) else .error (.unexpected wanted t)

def text (wanted : Wanted) : Rule Literal := fun ts =>
  match expect wanted TokenKind.isText ts with
  | .error e => .error e
  | .ok (t, rest) => .ok (⟨t.text, t.span⟩, rest)

theorem take_cases {ts rest : List Token} {t : Token} (h : take ts = .ok (t, rest)) :
    ts = t :: rest ∨ (ts = [] ∧ t = absent ∧ rest = []) := by
  unfold take at h
  split at h
  · cases h; simp
  · split at h <;> cases h; simp

theorem take_length_le {ts rest : List Token} {t : Token} (h : take ts = .ok (t, rest)) :
    rest.length ≤ ts.length := by
  rcases take_cases h with rfl | ⟨rfl, _, rfl⟩ <;> simp

theorem take_length_lt {ts rest : List Token} {t : Token} (h : take ts = .ok (t, rest))
    (ht : t.kind ≠ .endOfInput) : rest.length < ts.length := by
  rcases take_cases h with rfl | ⟨_, rfl, _⟩
  · simp
  · exact absurd rfl ht

theorem expect_length_le {wanted : Wanted} {holds : TokenKind → Bool} {ts rest : List Token}
    {t : Token} (h : expect wanted holds ts = .ok (t, rest)) : rest.length ≤ ts.length := by
  unfold expect at h
  split at h
  · cases h
  · next htake => split at h <;> cases h; exact take_length_le htake

theorem text_length_le {wanted : Wanted} {ts rest : List Token} {l : Literal}
    (h : text wanted ts = .ok (l, rest)) : rest.length ≤ ts.length := by
  unfold text at h
  split at h
  · cases h
  · next hexpect => cases h; exact expect_length_le hexpect

/-- The items of a list and the end of its bracket. A comma may stand before the bracket. -/
def items (ts : List Token) : Except SyntaxError ((List Literal × Nat) × List Token) :=
  match _h : take ts with
  | .error e => .error e
  | .ok (t, rest) =>
    if t.kind = .listClose then .ok (([], t.span.stop), rest)
    else if _ht : t.kind.isText then
      let item : Literal := ⟨t.text, t.span⟩
      match _h' : take rest with
      | .error e => .error e
      | .ok (s, rest') =>
        if s.kind = .listClose then .ok (([item], s.span.stop), rest')
        else if s.kind = .comma then
          match items rest' with
          | .error e => .error e
          | .ok ((more, stop), rest) => .ok ((item :: more, stop), rest)
        else .error (.unexpected .listSeparator s)
    else .error (.unexpected .listItem t)
termination_by ts.length
decreasing_by
  have h1 := take_length_lt _h (by intro hk; simp [hk, TokenKind.isText] at _ht)
  have h2 := take_length_le _h'
  omega

theorem items_length_le {ts rest : List Token} {r : List Literal × Nat}
    (h : items ts = .ok (r, rest)) : rest.length ≤ ts.length := by
  fun_induction items ts generalizing r <;> grind [→ take_length_le]

/-- A field's value. -/
def fieldValue : Rule FieldValue := fun ts =>
  match take ts with
  | .error e => .error e
  | .ok (t, rest) =>
    if t.kind.isText then .ok (.text ⟨t.text, t.span⟩, rest)
    else if t.kind = .listOpen then
      match items rest with
      | .error e => .error e
      | .ok ((values, stop), rest) => .ok (.list values ⟨t.span.start, stop⟩, rest)
    else .error (.unexpected .value t)

theorem fieldValue_length_le {ts rest : List Token} {v : FieldValue}
    (h : fieldValue ts = .ok (v, rest)) : rest.length ≤ ts.length := by
  unfold fieldValue at h
  grind [→ take_length_le, → items_length_le]

/-- A field whose name is `name`. -/
def fieldAfter (name : Token) : Rule Field := fun ts =>
  match expect (.assign name.text) (· == .assign) ts with
  | .error e => .error e
  | .ok (_, rest) =>
    match fieldValue rest with
    | .error e => .error e
    | .ok (value, rest) =>
      .ok (⟨⟨name.text, name.span⟩, value, ⟨name.span.start, value.span.stop⟩⟩, rest)

theorem fieldAfter_length_le {name : Token} {ts rest : List Token} {f : Field}
    (h : fieldAfter name ts = .ok (f, rest)) : rest.length ≤ ts.length := by
  unfold fieldAfter at h
  grind [→ expect_length_le, → fieldValue_length_le]

/-- The fields of a block and the end of its brace. -/
def fields (ts : List Token) : Except SyntaxError ((List Field × Nat) × List Token) :=
  match _h : take ts with
  | .error e => .error e
  | .ok (t, rest) =>
    if t.kind = .blockClose then .ok (([], t.span.stop), rest)
    else if _ht : t.kind = .endOfInput then .error (.unexpected .blockClose t)
    else if t.kind = .identifier then
      match _h' : fieldAfter t rest with
      | .error e => .error e
      | .ok (field, rest') =>
        match fields rest' with
        | .error e => .error e
        | .ok ((more, stop), rest) => .ok ((field :: more, stop), rest)
    else .error (.unexpected .fieldName t)
termination_by ts.length
decreasing_by
  have h1 := take_length_lt _h _ht
  have h2 := fieldAfter_length_le _h'
  omega

theorem fields_length_le {ts rest : List Token} {r : List Field × Nat}
    (h : fields ts = .ok (r, rest)) : rest.length ≤ ts.length := by
  fun_induction fields ts generalizing r <;>
    grind [→ take_length_le, → fieldAfter_length_le]

/-- A block whose identifier is `id`. -/
def blockAfter (id : Token) : Rule Block := fun ts =>
  match text .driver ts with
  | .error e => .error e
  | .ok (driver, rest) =>
    match text .blockName rest with
    | .error e => .error e
    | .ok (name, rest) =>
      match expect .blockOpen (· == .blockOpen) rest with
      | .error e => .error e
      | .ok (_, rest) =>
        match fields rest with
        | .error e => .error e
        | .ok ((fs, stop), rest) =>
          .ok (⟨⟨id.text, id.span⟩, driver, name, fs, ⟨id.span.start, stop⟩⟩, rest)

theorem blockAfter_length_le {id : Token} {ts rest : List Token} {b : Block}
    (h : blockAfter id ts = .ok (b, rest)) : rest.length ≤ ts.length := by
  unfold blockAfter at h
  grind [→ text_length_le, → expect_length_le, → fields_length_le]

/-- All blocks up to the end of the input. -/
def blocks (ts : List Token) : Except SyntaxError Document :=
  match _h : take ts with
  | .error e => .error e
  | .ok (t, rest) =>
    if t.kind = .endOfInput then .ok []
    else if _ht : t.kind = .identifier then
      match _h' : blockAfter t rest with
      | .error e => .error e
      | .ok (block, rest') =>
        match blocks rest' with
        | .error e => .error e
        | .ok more => .ok (block :: more)
    else .error (.unexpected .topLevelBlock t)
termination_by ts.length
decreasing_by
  have h1 := take_length_lt _h (by simp [_ht])
  have h2 := blockAfter_length_le _h'
  omega

/-- Reads a document. Spaces and comments may stand between any two tokens. -/
def parse (source : String) : Except SyntaxError Document :=
  blocks ((Token.ofSource source).filter fun t => !t.kind.isTrivia)

end Document
end HttpSuite
