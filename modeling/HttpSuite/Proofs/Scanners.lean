import HttpSuite.Document.Lexeme
import Mathlib.Data.List.TakeWhile

/-!
How tokens are read. The first character chooses a scanner, and each scanner stops at a character
that cannot go on its token. What a token covers is therefore read as the same token again,
whatever comes behind it, as long as that does not go on the token.
-/

namespace HttpSuite

open HttpSuite.Text

/-- A token of one character. -/
def TokenKind.isSign : TokenKind → Bool
  | blockOpen | blockClose | listOpen | listClose | comma | assign => true
  | _ => false

/-- Whether a character behind a token cannot be part of it. -/
def TokenKind.endsAt (d : Char) : TokenKind → Bool
  | whitespace => !Lexeme.isSpace d
  | comment => Lexeme.isNewline d
  | identifier => !Lexeme.isIdentifierChar d
  | heredoc => d == '\n'
  | _ => true

/-- Nothing of what comes behind a token can be part of it. -/
def TokenKind.EndsBefore (kind : TokenKind) (rest : List Char) : Prop :=
  ∀ d ∈ rest.head?, kind.endsAt d = true

namespace Lexeme

abbrev Scanner :=
  List Char → Lexeme × List Char

/-- The scanners of tokens that begin with a character. -/
inductive Scans (c : Char) : Scanner → Prop where
  | sign {kind : TokenKind} (h : kind.isSign = true) : Scans c fun cs => (plain kind [c], cs)
  | comment : Scans c (run .comment (fun d => !isNewline d) c)
  | string (h : c = '"') : Scans c quotedText
  | heredoc (h : c = '<') : Scans c heredocOpening
  | spaces (h : isSpace c = true) : Scans c (run .whitespace isSpace c)
  | identifier : Scans c (run .identifier isIdentifierChar c)
  | fault : Scans c fun cs => (faulty (.unexpectedCharacter c) [c], cs)

theorem scans_next (c : Char) : Scans c (next c) := by
  unfold next
  split
  case h_7 => exact .comment
  case h_8 => exact .string rfl
  case h_9 => exact .heredoc rfl
  case h_10 =>
      by_cases hspace : isSpace c = true
      · simp only [if_pos hspace]
        exact .spaces hspace
      · simp only [if_neg hspace]
        by_cases hidentifier : isIdentifierChar c = true
        · simp only [if_pos hidentifier]
          exact .identifier
        · simp only [if_neg hidentifier]
          exact .fault
  all_goals exact .sign rfl

theorem heredocBody_kind (opening delimiter cs : List Char) :
    (heredocBody opening delimiter cs).1.kind = .heredoc ∨
      (heredocBody opening delimiter cs).1.kind.isFault = true := by
  simp only [heredocBody]
  split
  · exact .inl rfl
  · exact .inr rfl

theorem heredocFrom_kind (mark cs : List Char) :
    (heredocFrom mark cs).1.kind = .heredoc ∨ (heredocFrom mark cs).1.kind.isFault = true := by
  simp only [heredocFrom]
  split
  · exact .inr rfl
  · split
    · exact heredocBody_kind _ _ _
    · exact heredocBody_kind _ _ _
    · exact .inr rfl
    · exact .inr rfl

theorem heredocOpening_kind (cs : List Char) :
    (heredocOpening cs).1.kind = .heredoc ∨ (heredocOpening cs).1.kind.isFault = true := by
  simp only [heredocOpening]
  split
  · exact heredocFrom_kind _ _
  · exact .inr rfl
  · exact .inr rfl

theorem quotedText_kind (cs : List Char) :
    (quotedText cs).1.kind = .string ∨ (quotedText cs).1.kind.isFault = true := by
  simp only [quotedText]
  split
  · exact .inr rfl
  · split
    · exact .inl rfl
    · exact .inr rfl

section Kinds

variable {c : Char} {cs : List Char}

/-- A token is a fault, a text, or plain. -/
theorem next_cases (c : Char) (cs : List Char) :
    (next c cs).1.kind.isFault = true ∨ (next c cs).1.kind.isText = true ∨
      ∃ kind raw, (next c cs).1 = plain kind raw ∧ (kind.isSign = true ∨ kind = .comment ∨
        kind = .identifier ∨ kind = .whitespace ∧ isSpace c = true) := by
  have hscan := scans_next c
  generalize next c = scan at hscan ⊢
  cases hscan with
  | sign hsign => exact .inr (.inr ⟨_, _, rfl, .inl hsign⟩)
  | comment => exact .inr (.inr ⟨_, _, rfl, .inr (.inl rfl)⟩)
  | string =>
      rcases quotedText_kind cs with hkind | hfault
      · exact .inr (.inl (by rw [hkind]; rfl))
      · exact .inl hfault
  | heredoc =>
      rcases heredocOpening_kind cs with hkind | hfault
      · exact .inr (.inl (by rw [hkind]; rfl))
      · exact .inl hfault
  | spaces hspace => exact .inr (.inr ⟨_, _, rfl, .inr (.inr (.inr ⟨rfl, hspace⟩))⟩)
  | identifier => exact .inr (.inr ⟨_, _, rfl, .inr (.inr (.inl rfl))⟩)
  | fault => exact .inl rfl

/-- A token that covers something is not the end of the input. -/
theorem next_kind (c : Char) (cs : List Char) : (next c cs).1.kind ≠ .endOfInput := by
  intro h
  rcases next_cases c cs with hkind | hkind | ⟨kind, raw, hplain, hkind⟩
  · rw [h] at hkind; cases hkind
  · rw [h] at hkind; cases hkind
  · rw [hplain] at h
    cases h
    simp [TokenKind.isSign] at hkind

theorem isSpace_of_whitespace (h : (next c cs).1.kind = .whitespace) : isSpace c = true := by
  rcases next_cases c cs with hkind | hkind | ⟨kind, raw, hplain, hkind⟩
  · rw [h] at hkind; cases hkind
  · rw [h] at hkind; cases hkind
  · rw [hplain] at h
    cases h
    simpa [TokenKind.isSign] using hkind

/-- The text of a token that is neither a text nor a fault is what it covers. -/
theorem next_text (htext : (next c cs).1.kind.isText = false)
    (hfault : (next c cs).1.kind.isFault = false) :
    (next c cs).1.text = String.ofList (next c cs).1.raw := by
  rcases next_cases c cs with hkind | hkind | ⟨kind, raw, hplain, _⟩
  · rw [hkind] at hfault; cases hfault
  · rw [hkind] at htext; cases htext
  · rw [hplain]; rfl

end Kinds

theorem takeWhile_append_ends {holds : Char → Bool} {front rest : List Char}
    (hfront : ∀ c ∈ front, holds c = true) (hrest : ∀ d ∈ rest.head?, holds d = false) :
    (front ++ rest).takeWhile holds = front := by
  rw [List.takeWhile_append_of_pos hfront, takeWhile_of_head hrest, List.append_nil]

theorem dropWhile_append_ends {holds : Char → Bool} {front rest : List Char}
    (hfront : ∀ c ∈ front, holds c = true) (hrest : ∀ d ∈ rest.head?, holds d = false) :
    (front ++ rest).dropWhile holds = rest := by
  rw [List.dropWhile_append_of_pos hfront, dropWhile_of_head hrest]

theorem head?_dropWhile (holds : Char → Bool) (cs : List Char) :
    ∀ d ∈ (cs.dropWhile holds).head?, holds d = false := by
  intro d hd
  have hstop := List.head?_dropWhile_not holds cs
  rw [hd] at hstop
  exact hstop

/-- A scanner reads a token from what the token covers, whatever it ends before. The token begins
with `lead`, which the scanner has behind it. -/
def Rereads (lead : List Char) (scan : Scanner) (cs : List Char) : Prop :=
  ∃ x covered after, cs = covered ++ after ∧ x.raw = lead ++ covered ∧
    x.kind.EndsBefore after ∧
    ∀ rest, x.kind.EndsBefore rest → scan (covered ++ rest) = (x, rest)

theorem rereads_run {kind : TokenKind} {holds : Char → Bool}
    (hkind : ∀ d, kind.endsAt d = !holds d) (c : Char) (cs : List Char) :
    Rereads [c] (run kind holds c) cs := by
  have hfront : ∀ d ∈ cs.takeWhile holds, holds d = true := fun _ => List.mem_takeWhile_imp
  refine ⟨plain kind (c :: cs.takeWhile holds), cs.takeWhile holds, cs.dropWhile holds,
    List.takeWhile_append_dropWhile.symm, rfl, ?_, ?_⟩
  · intro d hd
    show kind.endsAt d = true
    rw [hkind, head?_dropWhile holds cs d hd]
    rfl
  · intro rest hrest
    have hstop : ∀ d ∈ rest.head?, holds d = false := by
      intro d hd
      have hends : kind.endsAt d = true := hrest d hd
      rw [hkind] at hends
      simpa using hends
    simp only [run, takeWhile_append_ends hfront hstop, dropWhile_append_ends hfront hstop]

/-- Characters of a string and a quote are read as a string. -/
theorem quotedText_closed {body : List Char} (h : ∀ c ∈ body, isStringChar c = true)
    (rest : List Char) :
    quotedText (body ++ '"' :: rest) =
      (⟨.string, String.ofList body, '"' :: (body ++ ['"'])⟩, rest) := by
  have hquote : ∀ d ∈ ('"' :: rest).head?, isStringChar d = false := by
    rintro _ ⟨⟩
    rfl
  simp only [quotedText, takeWhile_append_ends h hquote, dropWhile_append_ends h hquote, if_true]

theorem rereads_quotedText {cs : List Char} (h : (quotedText cs).1.kind.isFault = false) :
    Rereads ['"'] quotedText cs := by
  have hbody : ∀ c ∈ cs.takeWhile isStringChar, isStringChar c = true :=
    fun _ => List.mem_takeWhile_imp
  have hcs := List.takeWhile_append_dropWhile (p := isStringChar) (l := cs)
  cases hrest : cs.dropWhile isStringChar with
  | nil =>
      simp only [quotedText, hrest] at h
      cases h
  | cons c after =>
      by_cases hc : c = '"'
      · subst hc
        rw [hrest, List.append_cons] at hcs
        refine ⟨⟨.string, String.ofList (cs.takeWhile isStringChar), _⟩,
          cs.takeWhile isStringChar ++ ['"'], after, hcs.symm, rfl, fun _ _ => rfl, ?_⟩
        intro rest _
        rw [List.append_assoc]
        exact quotedText_closed hbody rest
      · simp only [quotedText, hrest, if_neg hc] at h
        cases h

section Lines

variable {line : List Char} (hline : ∀ c ∈ line, (c != '\n') = true)

include hline

/-- A last line closes a heredoc or leaves it open. -/
theorem closingLine?_last (delimiter : List Char) {rest : List Char}
    (hrest : ∀ d ∈ rest.head?, d = '\n') (hclosing : withoutReturns line = delimiter) :
    closingLine? delimiter (line ++ rest) = some ([], line, rest) := by
  have hstop : ∀ d ∈ rest.head?, (d != '\n') = false := fun d hd => by simp [hrest d hd]
  rw [closingLine?, takeWhile_append_ends hline hstop, dropWhile_append_ends hline hstop,
    if_pos hclosing]

theorem closingLine?_line {delimiter : List Char} (hopen : withoutReturns line ≠ delimiter)
    (more : List Char) :
    closingLine? delimiter (line ++ '\n' :: more) =
      (closingLine? delimiter more).map fun (body, closing, rest) =>
        (line ++ '\n' :: body, closing, rest) := by
  have hstop : ∀ d ∈ ('\n' :: more).head?, (d != '\n') = false := by
    rintro _ ⟨⟩
    rfl
  rw [closingLine?, takeWhile_append_ends hline hstop, if_neg hopen]
  split
  · next hnil => rw [dropWhile_append_ends hline hstop] at hnil; cases hnil
  · next hcons =>
      rw [dropWhile_append_ends hline hstop] at hcons
      cases hcons
      rfl

end Lines

/-- The lines before the closing line of a heredoc are its own, whatever comes behind that line. -/
theorem closingLine?_again {delimiter cs body closing after : List Char}
    (h : closingLine? delimiter cs = some (body, closing, after)) :
    (∀ d ∈ after.head?, d = '\n') ∧
    ∀ rest, (∀ d ∈ rest.head?, d = '\n') →
      closingLine? delimiter (body ++ closing ++ rest) = some (body, closing, rest) := by
  have hline : ∀ cs : List Char, ∀ c ∈ cs.takeWhile (· != '\n'), (c != '\n') = true :=
    fun _ _ => List.mem_takeWhile_imp
  have hnewline : ∀ cs : List Char, ∀ d ∈ (cs.dropWhile (· != '\n')).head?, d = '\n' :=
    fun cs d hd => by simpa using head?_dropWhile _ cs d hd
  fun_induction closingLine? delimiter cs generalizing body with
  | case1 cs hclosing =>
      cases h
      exact ⟨hnewline cs, fun rest hrest => closingLine?_last (hline cs) delimiter hrest hclosing⟩
  | case2 => cases h
  | case3 cs hopen newline next hdrop ih =>
      obtain ⟨⟨body', closing', after'⟩, hnext, heq⟩ := Option.map_eq_some_iff.mp h
      cases heq
      obtain ⟨hafter, hagain⟩ := ih hnext
      refine ⟨hafter, ?_⟩
      intro rest hrest
      have hbreak : newline = '\n' := hnewline cs newline (by rw [hdrop]; rfl)
      subst hbreak
      simp only [List.append_assoc, List.cons_append]
      rw [closingLine?_line (hline cs) hopen, ← List.append_assoc, hagain rest hrest]
      rfl

theorem heredocBody_closed (opening : List Char) {delimiter body closing rest : List Char}
    (h : closingLine? delimiter (body ++ closing ++ rest) = some (body, closing, rest)) :
    heredocBody opening delimiter (body ++ closing ++ rest) =
      (⟨.heredoc, String.ofList (heredocText body), opening ++ body ++ closing⟩, rest) := by
  simp only [heredocBody, h]

theorem rereads_heredocBody {opening delimiter cs : List Char}
    (h : (heredocBody opening delimiter cs).1.kind.isFault = false) :
    Rereads opening (heredocBody opening delimiter) cs := by
  cases hclosing : closingLine? delimiter cs with
  | none =>
      simp only [heredocBody, hclosing] at h
      cases h
  | some found =>
      obtain ⟨body, closing, after⟩ := found
      obtain ⟨hafter, hagain⟩ := closingLine?_again hclosing
      refine ⟨⟨.heredoc, String.ofList (heredocText body), opening ++ body ++ closing⟩,
        body ++ closing, after, (closingLine?_append hclosing).symm, List.append_assoc .., ?_, ?_⟩
      · intro d hd
        exact beq_iff_eq.mpr (hafter d hd)
      · intro rest hrest
        exact heredocBody_closed opening (hagain rest fun d hd => beq_iff_eq.mp (hrest d hd))

/-- The two ways to end the opening line of a heredoc. -/
def IsLineBreak (newline : List Char) : Prop :=
  newline = ['\n'] ∨ newline = ['\r', '\n']

theorem heredocFrom_line (mark : List Char) {delimiter newline : List Char} (hne : delimiter ≠ [])
    (hdelimiter : ∀ c ∈ delimiter, isIdentifierChar c = true) (hnewline : IsLineBreak newline)
    (cs : List Char) :
    heredocFrom mark (delimiter ++ newline ++ cs) =
      heredocBody (mark ++ delimiter ++ newline) delimiter cs := by
  have hstop : ∀ d ∈ (newline ++ cs).head?, isIdentifierChar d = false := by
    rcases hnewline with rfl | rfl <;> rintro _ ⟨⟩ <;> decide
  have hempty : delimiter.isEmpty = false := List.isEmpty_eq_false_iff.mpr hne
  rw [List.append_assoc]
  simp only [heredocFrom, takeWhile_append_ends hdelimiter hstop,
    dropWhile_append_ends hdelimiter hstop, hempty, Bool.false_eq_true, if_false]
  rcases hnewline with rfl | rfl <;> rfl

/-- A heredoc that is read to its end has an opening line. -/
theorem heredocFrom_opening {mark cs : List Char}
    (h : (heredocFrom mark cs).1.kind.isFault = false) :
    ∃ delimiter newline rest, cs = delimiter ++ newline ++ rest ∧ delimiter ≠ [] ∧
      (∀ c ∈ delimiter, isIdentifierChar c = true) ∧ IsLineBreak newline := by
  have hcs := List.takeWhile_append_dropWhile (p := isIdentifierChar) (l := cs)
  have hdelimiter : ∀ c ∈ cs.takeWhile isIdentifierChar, isIdentifierChar c = true :=
    fun _ => List.mem_takeWhile_imp
  simp only [heredocFrom] at h
  split at h
  · cases h
  · next hempty =>
      have hne : cs.takeWhile isIdentifierChar ≠ [] := by simpa using hempty
      generalize cs.takeWhile isIdentifierChar = delimiter at hcs hdelimiter hne
      generalize cs.dropWhile isIdentifierChar = after at hcs h
      split at h
      · next rest =>
          exact ⟨delimiter, ['\n'], rest, by simp [← hcs], hne, hdelimiter, .inl rfl⟩
      · next rest =>
          exact ⟨delimiter, ['\r', '\n'], rest, by simp [← hcs], hne, hdelimiter, .inr rfl⟩
      · cases h
      · cases h

theorem rereads_heredocFrom {mark cs : List Char}
    (h : (heredocFrom mark cs).1.kind.isFault = false) : Rereads mark (heredocFrom mark) cs := by
  obtain ⟨delimiter, newline, rest, rfl, hne, hdelimiter, hnewline⟩ := heredocFrom_opening h
  have hline := heredocFrom_line mark hne hdelimiter hnewline
  rw [hline] at h
  obtain ⟨x, covered, after, rfl, hraw, hafter, hagain⟩ := rereads_heredocBody h
  refine ⟨x, delimiter ++ newline ++ covered, after, ?_, ?_, hafter, ?_⟩
  · simp only [List.append_assoc]
  · simp only [hraw, List.append_assoc]
  · intro rest hrest
    rw [List.append_assoc _ covered, hline, hagain rest hrest]

theorem rereads_heredocOpening {cs : List Char}
    (h : (heredocOpening cs).1.kind.isFault = false) : Rereads ['<'] heredocOpening cs := by
  simp only [heredocOpening] at h
  split at h
  · obtain ⟨x, covered, after, rfl, hraw, hafter, hagain⟩ := rereads_heredocFrom h
    exact ⟨x, '<' :: '<' :: covered, after, rfl, hraw, hafter, hagain⟩
  · cases h
  · cases h

/-- Any token but a fault is read again from the characters that it covers. -/
theorem rereads_next {c : Char} {cs : List Char} (h : (next c cs).1.kind.isFault = false) :
    Rereads [c] (next c) cs := by
  have hscan := scans_next c
  generalize next c = scan at h hscan
  cases hscan with
  | @sign kind hsign =>
      refine ⟨plain kind [c], [], cs, rfl, rfl, ?_, fun _ _ => rfl⟩
      intro d _
      show kind.endsAt d = true
      cases kind <;> first | rfl | cases hsign
  | comment => exact rereads_run (fun _ => (Bool.not_not _).symm) c cs
  | string hc => exact hc ▸ rereads_quotedText h
  | heredoc hc => exact hc ▸ rereads_heredocOpening h
  | spaces => exact rereads_run (fun _ => rfl) c cs
  | identifier => exact rereads_run (fun _ => rfl) c cs
  | fault => cases h

end Lexeme
end HttpSuite
