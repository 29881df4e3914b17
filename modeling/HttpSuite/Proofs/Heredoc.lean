import HttpSuite.Proofs.LineBreak

/-!
Texts written as heredocs. A delimiter that is none of a text's lines closes the heredoc behind
the text and nowhere before it, so the text is read back. A line break of carriage return and
newline leaves the text whole; one of a newline alone takes a carriage return from its end. Every
text has such a delimiter: one that is longer than the text.
-/

namespace HttpSuite

open HttpSuite.Text

namespace Lexeme

def IsDelimiter (delimiter : List Char) : Prop :=
  delimiter ≠ [] ∧ ∀ c ∈ delimiter, isIdentifierChar c = true

/-- No line of a text closes a heredoc with a delimiter. -/
def Avoids (delimiter text : List Char) : Prop :=
  ∀ line ∈ fields '\n' text, withoutReturns line ≠ delimiter

theorem IsDelimiter.isNewline_eq {delimiter : List Char} (h : IsDelimiter delimiter) {c : Char}
    (hc : c ∈ delimiter) : isNewline c = false := by
  have hidentifier := h.2 c hc
  cases hnewline : isNewline c with
  | false => rfl
  | true =>
      rw [isNewline, Bool.or_eq_true, beq_iff_eq, beq_iff_eq] at hnewline
      obtain rfl | rfl := hnewline <;> revert hidentifier <;> decide

theorem withoutReturns_concat (line : List Char) :
    withoutReturns (line ++ ['\r']) = withoutReturns line := by
  simp [withoutReturns]

theorem withoutReturns_delimiter {delimiter : List Char} (h : IsDelimiter delimiter) :
    withoutReturns delimiter = delimiter := by
  have hlast : ∀ c ∈ delimiter.reverse.head?, (c == '\r') = false := by
    intro c hc
    rw [List.head?_reverse] at hc
    have hother := h.isNewline_eq (List.mem_of_mem_getLast? hc)
    exact (Bool.or_eq_false_iff.mp hother).1
  rw [withoutReturns, dropWhile_of_head hlast, List.reverse_reverse]

theorem withoutFinal_concat (c : Char) (cs : List Char) : withoutFinal c (cs ++ [c]) = cs := by
  rw [withoutFinal, List.getLast?_concat, if_pos rfl, List.dropLast_concat]

section Written

variable {delimiter text newline rest : List Char}

theorem closingLine?_line_break {line : List Char} (hline : ∀ c ∈ line, (c != '\n') = true)
    (hopen : withoutReturns line ≠ delimiter) (hnewline : IsLineBreak newline)
    (more : List Char) :
    closingLine? delimiter (line ++ newline ++ more) =
      (closingLine? delimiter more).map fun (body, closing, rest) =>
        (line ++ newline ++ body, closing, rest) := by
  rcases hnewline with rfl | rfl
  · rw [List.append_assoc]
    exact (closingLine?_line hline hopen more).trans (by simp)
  · have hline' : ∀ c ∈ line ++ ['\r'], (c != '\n') = true := by
      rw [List.forall_mem_append]
      exact ⟨hline, List.forall_mem_singleton.mpr rfl⟩
    rw [← withoutReturns_concat] at hopen
    have hnext := closingLine?_line hline' hopen more
    simpa using hnext

/-- By induction on the lines of the text: none of them closes the heredoc, and the delimiter
behind them does. -/
theorem closingLine?_written (hdelimiter : IsDelimiter delimiter) (hnewline : IsLineBreak newline)
    (hrest : ∀ d ∈ rest.head?, d = '\n') (htext : Avoids delimiter text) :
    closingLine? delimiter (text ++ newline ++ (delimiter ++ rest)) =
      some (text ++ newline, delimiter, rest) := by
  have hline : ∀ cs : List Char, ∀ c ∈ cs.takeWhile (· != '\n'), (c != '\n') = true :=
    fun _ _ => List.mem_takeWhile_imp
  have hend : closingLine? delimiter (delimiter ++ rest) = some ([], delimiter, rest) := by
    refine closingLine?_last ?_ delimiter hrest (withoutReturns_delimiter hdelimiter)
    intro c hc
    have hother := hdelimiter.isNewline_eq hc
    rw [bne, (Bool.or_eq_false_iff.mp hother).2]
    rfl
  fun_induction closingLine? delimiter text with
  | case1 text hclosing =>
      refine absurd hclosing (htext _ ?_)
      rw [fields_eq]
      exact List.mem_cons_self
  | case2 text hopen hdrop =>
      have hcs := List.takeWhile_append_dropWhile (p := (· != '\n')) (l := text)
      rw [hdrop, List.append_nil] at hcs
      rw [hcs] at hopen
      rw [closingLine?_line_break (hcs ▸ hline text) hopen hnewline, hend]
      simp
  | case3 text hopen d next hdrop ih =>
      have hcs := List.takeWhile_append_dropWhile (p := (· != '\n')) (l := text)
      have hd := head?_dropWhile (· != '\n') text d (by rw [hdrop]; rfl)
      rw [bne_eq_false_iff_eq] at hd
      have hnext : Avoids delimiter next := by
        intro line hmem
        refine htext line ?_
        rw [fields_eq, hdrop]
        exact List.mem_cons_of_mem _ hmem
      rw [hdrop, hd] at hcs
      rw [← hcs]
      simp only [List.append_assoc, List.cons_append]
      rw [closingLine?_line (hline text) hopen, ← List.append_assoc, ih hnext]
      simp

theorem heredocText_newline (text : List Char) :
    heredocText (text ++ ['\n']) = withoutFinal '\r' text := by
  rw [heredocText, withoutFinal_concat]

theorem heredocText_return (text : List Char) : heredocText (text ++ ['\r', '\n']) = text := by
  rw [List.append_cons, heredocText, withoutFinal_concat, withoutFinal_concat]

/-- What a heredoc covers from its mark to its closing line. -/
def writtenHeredoc (newline delimiter text : List Char) : List Char :=
  ['<', '<', '<'] ++ delimiter ++ newline ++ text ++ newline ++ delimiter

theorem all_written (hdelimiter : IsDelimiter delimiter) (hnewline : IsLineBreak newline)
    (hrest : ∀ d ∈ rest.head?, d = '\n') (htext : Avoids delimiter text) :
    all (writtenHeredoc newline delimiter text ++ rest) =
      ⟨.heredoc, String.ofList (heredocText (text ++ newline)),
        writtenHeredoc newline delimiter text⟩ :: all rest := by
  have hbody := closingLine?_written hdelimiter hnewline hrest htext
  rw [← List.append_assoc] at hbody
  have hnext : next '<' ('<' :: '<' :: (delimiter ++ newline ++
      (text ++ newline ++ delimiter ++ rest))) =
      (⟨.heredoc, String.ofList (heredocText (text ++ newline)),
        writtenHeredoc newline delimiter text⟩, rest) := by
    show heredocFrom ['<', '<', '<'] _ = _
    rw [heredocFrom_line _ hdelimiter.1 hdelimiter.2 hnewline, heredocBody_closed _ hbody]
    simp [writtenHeredoc]
  have hchars : writtenHeredoc newline delimiter text ++ rest =
      '<' :: '<' :: '<' :: (delimiter ++ newline ++ (text ++ newline ++ delimiter ++ rest)) := by
    simp [writtenHeredoc]
  rw [hchars, all, hnext]
  rfl

end Written

end Lexeme

open Lexeme

/-- A text as a heredoc, from its mark to its closing line. -/
def writeHeredoc (newline delimiter text : String) : String :=
  "<<<" ++ delimiter ++ newline ++ text ++ newline ++ delimiter

/-- A source is one heredoc that holds `text`, and what comes behind it is read as it is read
alone, so many bytes and lines further on. -/
def IsHeredoc (source text rest : String) : Prop :=
  Token.ofSource (source ++ rest) =
    ⟨.heredoc, text, ⟨0, source.utf8ByteSize⟩, 1⟩ ::
      (Token.ofSource rest).map
        (Token.shift source.utf8ByteSize (source.toList.count '\n'))

theorem writeHeredoc_toList (newline delimiter text : String) :
    (writeHeredoc newline delimiter text).toList =
      writtenHeredoc newline.toList delimiter.toList text.toList := by
  simp [writeHeredoc, writtenHeredoc]

theorem isHeredoc_write {newline delimiter text rest : String}
    (hdelimiter : IsDelimiter delimiter.toList) (hnewline : IsLineBreak newline.toList)
    (htext : Avoids delimiter.toList text.toList) (hrest : ∀ c ∈ rest.toList.head?, c = '\n') :
    IsHeredoc (writeHeredoc newline delimiter text)
      (String.ofList (heredocText (text.toList ++ newline.toList))) rest := by
  have hall := all_written hdelimiter hnewline hrest htext
  rw [← writeHeredoc_toList] at hall
  rw [IsHeredoc, Token.ofSource, String.toList_append, hall, place, Token.ofSource, ← place_shift]
  simp only [byteCount_toList, Nat.zero_add]

theorem isHeredoc_newline {delimiter text rest : String} (hdelimiter : IsDelimiter delimiter.toList)
    (htext : Avoids delimiter.toList text.toList) (hrest : ∀ c ∈ rest.toList.head?, c = '\n') :
    IsHeredoc (writeHeredoc "\n" delimiter text)
      (String.ofList (withoutFinal '\r' text.toList)) rest := by
  rw [← heredocText_newline]
  exact isHeredoc_write hdelimiter (.inl rfl) htext hrest

theorem isHeredoc_return {delimiter text rest : String} (hdelimiter : IsDelimiter delimiter.toList)
    (htext : Avoids delimiter.toList text.toList) (hrest : ∀ c ∈ rest.toList.head?, c = '\n') :
    IsHeredoc (writeHeredoc "\r\n" delimiter text) text rest := by
  have hwritten : IsHeredoc (writeHeredoc "\r\n" delimiter text)
      (String.ofList (heredocText (text.toList ++ ['\r', '\n']))) rest :=
    isHeredoc_write hdelimiter (.inr rfl) htext hrest
  rwa [heredocText_return, String.ofList_toList] at hwritten

/-- A delimiter that is longer than a text is none of its lines. -/
theorem avoids_replicate (text : List Char) :
    Avoids (List.replicate (text.length + 1) 'E') text := by
  intro line hline hclosing
  have hreturns : (withoutReturns line).length ≤ line.length := by
    have hdropped := (List.dropWhile_sublist (· == '\r') (l := line.reverse)).length_le
    simpa only [withoutReturns, List.length_reverse] using hdropped
  have hle := length_le_of_mem_fields hline
  rw [hclosing, List.length_replicate] at hreturns
  omega

theorem heredocs_keep_their_text :
    (∀ delimiter text rest : String, IsDelimiter delimiter.toList →
      Avoids delimiter.toList text.toList → (∀ c ∈ rest.toList.head?, c = '\n') →
      IsHeredoc (writeHeredoc "\n" delimiter text)
        (String.ofList (withoutFinal '\r' text.toList)) rest ∧
      IsHeredoc (writeHeredoc "\r\n" delimiter text) text rest) ∧
    ∀ text : String, ∃ delimiter : String, IsDelimiter delimiter.toList ∧
      Avoids delimiter.toList text.toList ∧ IsHeredoc (writeHeredoc "\r\n" delimiter text) text "" := by
  refine ⟨?_, ?_⟩
  · intro delimiter text rest hdelimiter htext hrest
    exact ⟨isHeredoc_newline hdelimiter htext hrest, isHeredoc_return hdelimiter htext hrest⟩
  · intro text
    let delimiter := List.replicate (text.toList.length + 1) 'E'
    have hdelimiter : IsDelimiter delimiter := by
      refine ⟨List.cons_ne_nil _ _, ?_⟩
      intro c hc
      rw [List.eq_of_mem_replicate hc]
      decide
    have htext : Avoids delimiter text.toList := avoids_replicate text.toList
    rw [← String.toList_ofList (l := delimiter)] at hdelimiter htext
    exact ⟨String.ofList delimiter, hdelimiter, htext,
      isHeredoc_return hdelimiter htext (fun _ hc => nomatch hc)⟩

/-- The text ends in a blank line and a carriage return, and one of its lines begins with the
delimiter. -/
theorem sample_heredocs :
    IsDelimiter "EOF".toList ∧ Avoids "EOF".toList "\x7b\"a\"\x7d\nEOF \n\n\r".toList ∧
    (∀ c ∈ "\n\x7d".toList.head?, c = '\n') ∧
    IsHeredoc "<<<EOF\n\x7b\"a\"\x7d\nEOF \n\n\r\nEOF" "\x7b\"a\"\x7d\nEOF \n\n" "\n\x7d" ∧
    IsHeredoc "<<<EOF\r\n\x7b\"a\"\x7d\nEOF \n\n\r\r\nEOF" "\x7b\"a\"\x7d\nEOF \n\n\r"
      "\n\x7d" := by
  have hdelimiter : IsDelimiter "EOF".toList :=
    ⟨by decide, List.all_eq_true.mp (by decide +kernel)⟩
  have htext : Avoids "EOF".toList "\x7b\"a\"\x7d\nEOF \n\n\r".toList := by
    unfold Avoids
    decide +kernel
  have hrest : ∀ c ∈ "\n\x7d".toList.head?, c = '\n' := by
    rintro _ ⟨⟩
    rfl
  obtain ⟨hnewline, hreturn⟩ := heredocs_keep_their_text.1 "EOF" _ _ hdelimiter htext hrest
  exact ⟨hdelimiter, htext, hrest, hnewline, hreturn⟩

end HttpSuite
