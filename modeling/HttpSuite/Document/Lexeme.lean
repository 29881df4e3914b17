import HttpSuite.Document.Token
import HttpSuite.Text.Search
import HttpSuite.Text.Utf8

/-!
Splitting a source into tokens. `Lexeme.next` takes the characters of one token from the front
of a non-empty source, `Lexeme.all` repeats it up to the end or the first fault, and `Lexeme.place`
adds byte spans and lines. A lexeme keeps the characters it covers, and `Lexeme.next_raw` says that
they and the rest are the source.
-/

namespace HttpSuite

open HttpSuite.Text

/-- A token without its position. -/
structure Lexeme where
  kind : TokenKind
  text : String
  raw : List Char
  deriving DecidableEq

namespace Lexeme

def isSpace (c : Char) : Bool :=
  c == ' ' || c == '\t' || c == '\r' || c == '\n'

def isNewline (c : Char) : Bool :=
  c == '\r' || c == '\n'

/-- ASCII letters, digits and the underscore. -/
def isIdentifierChar (c : Char) : Bool :=
  c.isAlphanum || c == '_'

/-- A token whose value is what it covers. -/
def plain (kind : TokenKind) (raw : List Char) : Lexeme :=
  ⟨kind, String.ofList raw, raw⟩

def faulty (cause : LexicalFault) (raw : List Char) : Lexeme :=
  ⟨.fault cause, cause.message, raw⟩

/-- A token of one character and all that follow it in a class. -/
def run (kind : TokenKind) (holds : Char → Bool) (c : Char) (cs : List Char) :
    Lexeme × List Char :=
  (plain kind (c :: cs.takeWhile holds), cs.dropWhile holds)

def isStringChar (c : Char) : Bool :=
  !isNewline c && c != '"'

/-- A string after its opening quote. It has no escapes and stays on its line. -/
def quotedText (cs : List Char) : Lexeme × List Char :=
  let body := cs.takeWhile isStringChar
  match cs.dropWhile isStringChar with
  | [] => (faulty .unterminatedString ('"' :: body), [])
  | c :: rest =>
    if c = '"' then (⟨.string, String.ofList body, '"' :: (body ++ ['"'])⟩, rest)
    else (faulty .newlineInString ('"' :: body), c :: rest)

/-- A line without the carriage returns at its end. -/
def withoutReturns (line : List Char) : List Char :=
  (line.reverse.dropWhile (· == '\r')).reverse

/-- Finds the first line that is `delimiter`: the lines before it, each with its newline, that
line, and what follows from its newline on. -/
def closingLine? (delimiter : List Char) (cs : List Char) :
    Option (List Char × List Char × List Char) :=
  if withoutReturns (cs.takeWhile (· != '\n')) = delimiter then
    some ([], cs.takeWhile (· != '\n'), cs.dropWhile (· != '\n'))
  else
    match _h : cs.dropWhile (· != '\n') with
    | [] => none
    | newline :: next =>
      (closingLine? delimiter next).map fun (body, closing, rest) =>
        (cs.takeWhile (· != '\n') ++ newline :: body, closing, rest)
termination_by cs.length
decreasing_by exact length_lt_of_dropWhile _h

def withoutFinal (c : Char) (cs : List Char) : List Char :=
  if cs.getLast? = some c then cs.dropLast else cs

/-- A heredoc's text: the newline before the closing line is not part of it. -/
def heredocText (body : List Char) : List Char :=
  withoutFinal '\r' (withoutFinal '\n' body)

/-- The rest of a heredoc after its opening line; `opening` is what that line covers. -/
def heredocBody (opening delimiter cs : List Char) : Lexeme × List Char :=
  match closingLine? delimiter cs with
  | some (body, closing, rest) =>
    (⟨.heredoc, String.ofList (heredocText body), opening ++ body ++ closing⟩, rest)
  | none => (faulty (.unterminatedHeredoc (String.ofList delimiter)) (opening ++ cs), [])

/-- A heredoc after its mark: a delimiter that ends its line, then lines up to the delimiter. -/
def heredocFrom (mark cs : List Char) : Lexeme × List Char :=
  let delimiter := cs.takeWhile isIdentifierChar
  let opening := mark ++ delimiter
  if delimiter.isEmpty then (faulty .heredocDelimiter mark, cs)
  else
    match cs.dropWhile isIdentifierChar with
    | '\n' :: rest => heredocBody (opening ++ ['\n']) delimiter rest
    | '\r' :: '\n' :: rest => heredocBody (opening ++ ['\r', '\n']) delimiter rest
    | '\r' :: rest =>
      (faulty (.heredocNewline (String.ofList delimiter)) (opening ++ ['\r']), rest)
    | rest => (faulty (.heredocNewline (String.ofList delimiter)) opening, rest)

/-- A heredoc after its first character. -/
def heredocOpening (cs : List Char) : Lexeme × List Char :=
  match cs with
  | '<' :: '<' :: rest => heredocFrom ['<', '<', '<'] rest
  | '<' :: rest => (faulty .heredocMark ['<', '<'], rest)
  | rest => (faulty .heredocMark ['<'], rest)

/-- The first token of the source `c :: cs` and what is left. -/
def next (c : Char) (cs : List Char) : Lexeme × List Char :=
  match c with
  | '{' => (plain .blockOpen [c], cs)
  | '}' => (plain .blockClose [c], cs)
  | '[' => (plain .listOpen [c], cs)
  | ']' => (plain .listClose [c], cs)
  | ',' => (plain .comma [c], cs)
  | '=' => (plain .assign [c], cs)
  | '#' => run .comment (fun c => !isNewline c) c cs
  | '"' => quotedText cs
  | '<' => heredocOpening cs
  | c =>
    if isSpace c then run .whitespace isSpace c cs
    else if isIdentifierChar c then run .identifier isIdentifierChar c cs
    else (faulty (.unexpectedCharacter c) [c], cs)

theorem closingLine?_append {delimiter cs body closing rest : List Char}
    (h : closingLine? delimiter cs = some (body, closing, rest)) :
    body ++ closing ++ rest = cs := by
  fun_induction closingLine? delimiter cs generalizing body with
  | case1 cs =>
      cases h
      exact List.takeWhile_append_dropWhile
  | case2 => cases h
  | case3 cs _ newline next hdrop ih =>
      obtain ⟨⟨body', closing', rest'⟩, hnext, heq⟩ := Option.map_eq_some_iff.1 h
      cases heq
      have hcs := List.takeWhile_append_dropWhile (p := (· != '\n')) (l := cs)
      rw [hdrop, ← ih hnext] at hcs
      simpa using hcs

theorem heredocBody_raw (opening delimiter cs : List Char) :
    (heredocBody opening delimiter cs).1.raw ++ (heredocBody opening delimiter cs).2
      = opening ++ cs := by
  unfold heredocBody
  split
  · next h => simp [← closingLine?_append h]
  · simp [faulty]

theorem heredocFrom_raw (mark cs : List Char) :
    (heredocFrom mark cs).1.raw ++ (heredocFrom mark cs).2 = mark ++ cs := by
  have hcs := List.takeWhile_append_dropWhile (p := isIdentifierChar) (l := cs)
  generalize hdelimiter : cs.takeWhile isIdentifierChar = delimiter at hcs
  generalize hafter : cs.dropWhile isIdentifierChar = after at hcs
  unfold heredocFrom
  simp only [hdelimiter, hafter]
  split
  · rfl
  · split <;> simp [heredocBody_raw, faulty, ← hcs]

theorem quotedText_raw (cs : List Char) :
    (quotedText cs).1.raw ++ (quotedText cs).2 = '"' :: cs := by
  have hcs := List.takeWhile_append_dropWhile (p := isStringChar) (l := cs)
  unfold quotedText
  simp only
  split
  · next h => simpa [faulty, h] using hcs
  · next c rest h =>
      rw [h] at hcs
      split <;> simp_all [faulty]

theorem heredocOpening_raw (cs : List Char) :
    (heredocOpening cs).1.raw ++ (heredocOpening cs).2 = '<' :: cs := by
  unfold heredocOpening
  split <;> simp [heredocFrom_raw, faulty]

/-- The characters of the first token and what is left are the source. -/
theorem next_raw (c : Char) (cs : List Char) :
    (next c cs).1.raw ++ (next c cs).2 = c :: cs := by
  unfold next
  split <;> try split
  all_goals try split
  all_goals
    simp [plain, run, faulty, quotedText_raw, heredocOpening_raw,
      List.takeWhile_append_dropWhile]

theorem heredocFrom_raw_ne_nil {mark : List Char} (hmark : mark ≠ []) (cs : List Char) :
    (heredocFrom mark cs).1.raw ≠ [] := by
  unfold heredocFrom
  simp only
  repeat' split
  all_goals try unfold heredocBody
  all_goals try split
  all_goals simp [faulty, hmark]

/-- A token covers at least one character. -/
theorem next_raw_ne_nil (c : Char) (cs : List Char) : (next c cs).1.raw ≠ [] := by
  unfold next
  split <;> try split
  all_goals try split
  all_goals try simp [plain, run, faulty]
  · unfold quotedText
    simp only
    split <;> try split
    all_goals simp [faulty]
  · unfold heredocOpening
    split <;> simp [faulty, heredocFrom_raw_ne_nil]

theorem next_length_lt (c : Char) (cs : List Char) :
    (next c cs).2.length < (c :: cs).length := by
  have hraw := congrArg List.length (next_raw c cs)
  have hne := List.length_pos_iff.2 (next_raw_ne_nil c cs)
  simp only [List.length_append] at hraw
  omega

/-- The tokens of a source, up to its end or the first fault. -/
def all (cs : List Char) : List Lexeme :=
  match cs with
  | [] => [⟨.endOfInput, "", []⟩]
  | c :: cs =>
    if (next c cs).1.kind.isFault then [(next c cs).1]
    else (next c cs).1 :: all (next c cs).2
termination_by cs.length
decreasing_by exact next_length_lt c cs

/-- Adds positions: each token begins where the one before it ended, and its line is one more
than the number of newlines before it. -/
def place (start line : Nat) : List Lexeme → List Token
  | [] => []
  | x :: xs =>
    let stop := start + byteCount x.raw
    ⟨x.kind, x.text, ⟨start, stop⟩, line⟩ :: place stop (line + x.raw.count '\n') xs

end Lexeme

/-- The tokens of a source with their positions. -/
def Token.ofSource (source : String) : List Token :=
  Lexeme.place 0 1 (Lexeme.all source.toList)

end HttpSuite
