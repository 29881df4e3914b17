import HttpSuite.Document.Lexeme

/-!
Reading tokens with a cursor. A cursor knows how many bytes it has read and on which line it
stands. It goes over a source character by character and counts a line at each newline; only
where a heredoc closes it passes many characters at once. `scan_cons` says that it reads the
token that `Lexeme.next` reads and stands behind what that token covers.
-/

namespace HttpSuite

open HttpSuite.Text

/-- A place in a source: what is left to read, the bytes before it and its line. -/
structure Cursor where
  rest : List Char
  offset : Nat
  line : Nat

namespace Cursor

def ofSource (source : String) : Cursor :=
  ⟨source.toList, 0, 1⟩

/-- Goes over one character. -/
def advance (s : Cursor) : Cursor :=
  match s.rest with
  | [] => s
  | c :: rest => ⟨rest, s.offset + c.utf8Size, if c = '\n' then s.line + 1 else s.line⟩

/-- Goes over all of `front` at once. -/
def skip (s : Cursor) (front rest : List Char) : Cursor :=
  ⟨rest, s.offset + byteCount front, s.line + front.count '\n'⟩

def startsWith (s : Cursor) (c : Char) : Bool :=
  s.rest.head? == some c

theorem advance_cons (c : Char) (cs : List Char) (offset line : Nat) :
    advance ⟨c :: cs, offset, line⟩ = skip ⟨c :: cs, offset, line⟩ [c] cs := by
  simp only [advance, skip, byteCount, List.count_singleton, beq_iff_eq, Nat.add_zero]
  split <;> rfl

theorem advance_length_lt {s : Cursor} {c : Char} {cs : List Char} (h : s.rest = c :: cs) :
    s.advance.rest.length < s.rest.length := by
  rw [advance, h]
  exact Nat.lt_succ_self cs.length

/-- Takes characters one by one as long as they are in a class. -/
def takeWhile (holds : Char → Bool) (s : Cursor) : List Char × Cursor :=
  match _h : s.rest with
  | [] => ([], s)
  | c :: _ =>
    if holds c then
      let (front, last) := takeWhile holds s.advance
      (c :: front, last)
    else ([], s)
termination_by s.rest.length
decreasing_by exact advance_length_lt _h

/-- A token from one cursor to another. -/
def token (s last : Cursor) (kind : TokenKind) (text : String) : Token × Cursor :=
  (⟨kind, text, ⟨s.offset, last.offset⟩, s.line⟩, last)

def fault (s last : Cursor) (cause : LexicalFault) : Token × Cursor :=
  s.token last (.fault cause) cause.message

def sign (s : Cursor) (kind : TokenKind) (c : Char) : Token × Cursor :=
  s.token s.advance kind (String.ofList [c])

def run (s : Cursor) (kind : TokenKind) (holds : Char → Bool) (c : Char) : Token × Cursor :=
  let (front, last) := s.advance.takeWhile holds
  s.token last kind (String.ofList (c :: front))

def quotedText (s : Cursor) : Token × Cursor :=
  let (body, last) := s.advance.takeWhile Lexeme.isStringChar
  match last.rest with
  | [] => s.fault last .unterminatedString
  | c :: _ =>
    if c = '"' then s.token last.advance .string (String.ofList body)
    else s.fault last .newlineInString

/-- The rest of a heredoc. Lines are searched ahead of the cursor, which then goes over them. -/
def heredocBody (s last : Cursor) (delimiter : List Char) : Token × Cursor :=
  match Lexeme.closingLine? delimiter last.rest with
  | some (body, closing, rest) =>
    s.token (last.skip (body ++ closing) rest) .heredoc
      (String.ofList (Lexeme.heredocText body))
  | none => s.fault (last.skip last.rest []) (.unterminatedHeredoc (String.ofList delimiter))

/-- The rest of a heredoc behind its delimiter, which has to end its line. -/
def heredocLine (s name : Cursor) (delimiter : List Char) : Token × Cursor :=
  let newline := if name.startsWith '\r' then name.advance else name
  if newline.startsWith '\n' then s.heredocBody newline.advance delimiter
  else s.fault newline (.heredocNewline (String.ofList delimiter))

def heredocFrom (s last : Cursor) : Token × Cursor :=
  let (delimiter, name) := last.takeWhile Lexeme.isIdentifierChar
  if delimiter.isEmpty then s.fault name .heredocDelimiter
  else s.heredocLine name delimiter

def heredocOpening (s : Cursor) : Token × Cursor :=
  let second := s.advance
  if second.startsWith '<' then
    let third := second.advance
    if third.startsWith '<' then s.heredocFrom third.advance else s.fault third .heredocMark
  else s.fault second .heredocMark

/-- The next token and the cursor behind it. -/
def scan (s : Cursor) : Token × Cursor :=
  match s.rest with
  | [] => s.token s .endOfInput ""
  | c :: _ =>
    match c with
    | '{' => s.sign .blockOpen c
    | '}' => s.sign .blockClose c
    | '[' => s.sign .listOpen c
    | ']' => s.sign .listClose c
    | ',' => s.sign .comma c
    | '=' => s.sign .assign c
    | '#' => s.run .comment (fun c => !Lexeme.isNewline c) c
    | '"' => s.quotedText
    | '<' => s.heredocOpening
    | c =>
      if Lexeme.isSpace c then s.run .whitespace Lexeme.isSpace c
      else if Lexeme.isIdentifierChar c then s.run .identifier Lexeme.isIdentifierChar c
      else s.fault s.advance (.unexpectedCharacter c)

/-- A token that is read at a cursor, and the cursor behind what it covers. -/
def placed (s : Cursor) (read : Lexeme × List Char) : Token × Cursor :=
  s.token (s.skip read.1.raw read.2) read.1.kind read.1.text

@[simp] theorem rest_skip (s : Cursor) (front rest : List Char) : (s.skip front rest).rest = rest :=
  rfl

@[simp] theorem startsWith_skip (s : Cursor) (front rest : List Char) (c d : Char) :
    (s.skip front (c :: rest)).startsWith d = (c == d) :=
  rfl

theorem startsWith_eq_false {s : Cursor} {c : Char} (h : ∀ rest, s.rest = c :: rest → False) :
    s.startsWith c = false := by
  obtain ⟨cs, offset, line⟩ := s
  cases cs with
  | nil => rfl
  | cons d cs =>
      refine beq_eq_false_iff_ne.mpr ?_
      intro hd
      cases hd
      exact h cs rfl

theorem skip_skip (s : Cursor) (front more rest rest' : List Char) :
    (s.skip front rest).skip more rest' = s.skip (front ++ more) rest' := by
  simp only [skip, byteCount_append, List.count_append, Nat.add_assoc]

theorem advance_skip (s : Cursor) (front : List Char) (c : Char) (cs : List Char) :
    (s.skip front (c :: cs)).advance = s.skip (front ++ [c]) cs := by
  rw [skip, advance_cons, ← skip_skip s front [c] (c :: cs) cs]
  rfl

theorem takeWhile_eq (holds : Char → Bool) (s : Cursor) :
    s.takeWhile holds =
      (s.rest.takeWhile holds, s.skip (s.rest.takeWhile holds) (s.rest.dropWhile holds)) := by
  obtain ⟨cs, offset, line⟩ := s
  induction cs generalizing offset line with
  | nil => rw [takeWhile]; rfl
  | cons c cs ih =>
      rw [takeWhile]
      by_cases hc : holds c = true
      · have hrest : (skip ⟨c :: cs, offset, line⟩ [c] cs).takeWhile holds =
            (_, (skip ⟨c :: cs, offset, line⟩ [c] cs).skip _ _) := ih _ _
        simp only [hc, if_true, advance_cons, hrest, skip_skip, List.takeWhile_cons_of_pos,
          List.dropWhile_cons_of_pos]
        rfl
      · simp only [hc, List.takeWhile_cons, List.dropWhile_cons]
        rfl

section Scanners

variable (c : Char) (cs : List Char) (offset line : Nat)

theorem sign_eq (kind : TokenKind) :
    sign ⟨c :: cs, offset, line⟩ kind c =
      placed ⟨c :: cs, offset, line⟩ (Lexeme.plain kind [c], cs) := by
  rw [sign, advance_cons]
  rfl

theorem run_eq (kind : TokenKind) (holds : Char → Bool) :
    run ⟨c :: cs, offset, line⟩ kind holds c =
      placed ⟨c :: cs, offset, line⟩ (Lexeme.run kind holds c cs) := by
  simp only [run, advance_cons, takeWhile_eq, skip_skip]
  rfl

theorem quotedText_eq :
    quotedText ⟨'"' :: cs, offset, line⟩ =
      placed ⟨'"' :: cs, offset, line⟩ (Lexeme.quotedText cs) := by
  simp only [quotedText, advance_cons, takeWhile_eq, skip_skip, rest_skip, Lexeme.quotedText]
  cases cs.dropWhile Lexeme.isStringChar with
  | nil => rfl
  | cons d rest =>
      by_cases hd : d = '"'
      · simp only [hd, if_true, advance_skip]
        rfl
      · simp only [hd, if_false]
        rfl

theorem heredocBody_eq (s : Cursor) (opening delimiter : List Char) :
    heredocBody s (s.skip opening cs) delimiter =
      s.placed (Lexeme.heredocBody opening delimiter cs) := by
  simp only [heredocBody, Lexeme.heredocBody, skip_skip, rest_skip]
  cases Lexeme.closingLine? delimiter cs with
  | none => rfl
  | some parts =>
      obtain ⟨body, closing, rest⟩ := parts
      simp only [← List.append_assoc]
      rfl

theorem heredocFrom_eq (s : Cursor) (mark : List Char) :
    heredocFrom s (s.skip mark cs) = s.placed (Lexeme.heredocFrom mark cs) := by
  have hcs := List.takeWhile_append_dropWhile (p := Lexeme.isIdentifierChar) (l := cs)
  simp only [heredocFrom, Lexeme.heredocFrom, takeWhile_eq, skip_skip, rest_skip]
  generalize cs.takeWhile Lexeme.isIdentifierChar = delimiter at hcs ⊢
  generalize cs.dropWhile Lexeme.isIdentifierChar = after at hcs ⊢
  by_cases hname : delimiter = []
  · subst hname hcs
    simp only [List.isEmpty_nil, List.append_nil, List.nil_append, if_true]
    rfl
  · simp only [List.isEmpty_eq_false_iff.mpr hname, Bool.false_eq_true, if_false, heredocLine]
    symm
    split
    · simp [advance_skip, heredocBody_eq]
    · simp [advance_skip, heredocBody_eq]
    · next hline =>
        simp only [startsWith_skip, advance_skip, BEq.rfl, if_true]
        rw [startsWith_eq_false hline]
        rfl
    · next hnewline _ hreturn =>
        have hbare : (s.skip (mark ++ delimiter) after).startsWith '\r' = false :=
          startsWith_eq_false hreturn
        have hopen : (s.skip (mark ++ delimiter) after).startsWith '\n' = false :=
          startsWith_eq_false hnewline
        simp only [hbare, hopen, Bool.false_eq_true, if_false]
        rfl

theorem heredocOpening_eq :
    heredocOpening ⟨'<' :: cs, offset, line⟩ =
      placed ⟨'<' :: cs, offset, line⟩ (Lexeme.heredocOpening cs) := by
  simp only [heredocOpening, advance_cons, Lexeme.heredocOpening]
  symm
  split
  · simp [advance_skip, heredocFrom_eq]
  · next hthird =>
      simp only [startsWith_skip, advance_skip, BEq.rfl, if_true]
      rw [startsWith_eq_false hthird]
      rfl
  · next hsecond =>
      rw [startsWith_eq_false hsecond]
      rfl

/-- The cursor reads the token at the front of what is left, and stands behind it. -/
theorem scan_cons :
    scan ⟨c :: cs, offset, line⟩ = placed ⟨c :: cs, offset, line⟩ (Lexeme.next c cs) := by
  unfold scan
  simp only
  split
  all_goals try exact sign_eq ..
  · exact run_eq ..
  · exact quotedText_eq ..
  · exact heredocOpening_eq ..
  · have hnext : Lexeme.next c cs =
        if Lexeme.isSpace c then Lexeme.run .whitespace Lexeme.isSpace c cs
        else if Lexeme.isIdentifierChar c then Lexeme.run .identifier Lexeme.isIdentifierChar c cs
        else (Lexeme.faulty (.unexpectedCharacter c) [c], cs) := by
      unfold Lexeme.next
      split <;> first | contradiction | rfl
    rw [hnext]
    split
    · exact run_eq ..
    · split
      · exact run_eq ..
      · rw [advance_cons]
        rfl

end Scanners

theorem scan_length_lt {s : Cursor} (h : s.scan.1.kind ≠ .endOfInput) :
    s.scan.2.rest.length < s.rest.length := by
  obtain ⟨cs, offset, line⟩ := s
  cases cs with
  | nil => exact absurd rfl h
  | cons c cs =>
      rw [scan_cons]
      exact Lexeme.next_length_lt c cs

/-- The tokens from a cursor on, up to the end or the first fault. -/
def tokens (s : Cursor) : List Token :=
  if _h : s.scan.1.kind = .endOfInput ∨ s.scan.1.kind.isFault then [s.scan.1]
  else s.scan.1 :: tokens s.scan.2
termination_by s.rest.length
decreasing_by exact scan_length_lt (not_or.mp _h).1

end Cursor
end HttpSuite
