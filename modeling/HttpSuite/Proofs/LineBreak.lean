import HttpSuite.Proofs.Tiling

/-!
A line break behind characters that are split into tokens without a fault. It ends whatever they
end in, a comment, the last line of a heredoc or spaces, so the tokens before it stay as they are
and what comes after it is split as if it stood alone, further on in the text.
-/

namespace HttpSuite

open HttpSuite.Text

/-- The same part of a text that comes after so many bytes more. -/
def Span.shift (bytes : Nat) (s : Span) : Span :=
  ⟨s.start + bytes, s.stop + bytes⟩

def Token.shift (bytes lines : Nat) (t : Token) : Token :=
  { t with span := t.span.shift bytes, line := t.line + lines }

namespace Lexeme

section Stops

variable {p : Char → Bool} {stop : Char} (hstop : p stop = false) (cs more : List Char)

include hstop

theorem takeWhile_append_stop : (cs ++ stop :: more).takeWhile p = cs.takeWhile p := by
  induction cs with
  | nil => exact List.takeWhile_cons_of_neg (by simp [hstop])
  | cons c cs ih =>
      rw [List.cons_append, List.takeWhile_cons, List.takeWhile_cons, ih]

theorem dropWhile_append_stop :
    (cs ++ stop :: more).dropWhile p = cs.dropWhile p ++ stop :: more := by
  induction cs with
  | nil => exact List.dropWhile_cons_of_neg (by simp [hstop])
  | cons c cs ih =>
      rw [List.cons_append, List.dropWhile_cons, List.dropWhile_cons, ih]
      split <;> rfl

end Stops

/-- A line break behind some characters changes nothing of what is read from them. -/
def Settled (scan : List Char → Lexeme × List Char) (cs : List Char) : Prop :=
  ∀ more, scan (cs ++ '\n' :: more) = ((scan cs).1, (scan cs).2 ++ '\n' :: more)

theorem isSpace_cases {c : Char} (h : isSpace c = true) :
    c = ' ' ∨ c = '\t' ∨ c = '\r' ∨ c = '\n' := by
  simpa [isSpace, or_assoc] using h

theorem next_space {c : Char} (h : isSpace c = true) (cs : List Char) :
    next c cs = run .whitespace isSpace c cs := by
  rcases isSpace_cases h with rfl | rfl | rfl | rfl <;> rfl

theorem settled_spaces (c : Char) {cs : List Char} {d : Char} (hd : d ∈ cs)
    (hspace : isSpace d = false) : Settled (run .whitespace isSpace c) cs := by
  intro more
  obtain ⟨spaces, rest, rfl⟩ := List.append_of_mem hd
  rw [List.append_assoc, List.cons_append]
  simp only [run, takeWhile_append_stop hspace, dropWhile_append_stop hspace, List.append_assoc,
    List.cons_append]

theorem endsAt_newline {kind : TokenKind} (h : kind ≠ .whitespace) :
    kind.endsAt '\n' = true := by
  cases kind with
  | whitespace => exact absurd rfl h
  | identifier => decide
  | _ => rfl

theorem settled_of_rereads {lead cs : List Char} {scan : Scanner} (h : Rereads lead scan cs)
    (hkind : (scan cs).1.kind ≠ .whitespace) : Settled scan cs := by
  obtain ⟨x, covered, after, rfl, _, hafter, hagain⟩ := h
  rw [hagain after hafter] at hkind
  intro more
  rw [hagain after hafter, List.append_assoc, hagain (after ++ '\n' :: more)]
  intro d hd
  cases after with
  | nil => cases hd; exact endsAt_newline hkind
  | cons a after => exact hafter d hd

/-- Spaces are the only token that a line break can make longer. -/
theorem settled_next {c : Char} {cs : List Char} (h : (next c cs).1.kind.isFault = false) :
    Settled (next c) cs ∨ ∀ d ∈ c :: cs, isSpace d = true := by
  by_cases hkind : (next c cs).1.kind = .whitespace
  · have hspace := isSpace_of_whitespace hkind
    by_cases hall : ∀ d ∈ cs, isSpace d = true
    · exact .inr (List.forall_mem_cons.mpr ⟨hspace, hall⟩)
    · simp only [not_forall, Bool.not_eq_true] at hall
      obtain ⟨d, hd, hother⟩ := hall
      rw [funext (next_space hspace)]
      exact .inl (settled_spaces c hd hother)
  · exact .inl (settled_of_rereads (rereads_next h) hkind)

/-- The tokens of characters that begin at a place, spaces and comments left out. -/
def visible (start line : Nat) (cs : List Char) : List Token :=
  (place start line (all cs)).filter fun t => !t.kind.isTrivia

theorem visible_nil (start line : Nat) :
    visible start line [] = [⟨.endOfInput, "", ⟨start, start⟩, line⟩] := by
  rw [visible, all]
  rfl

theorem visible_next {c : Char} {cs : List Char} (h : (next c cs).1.kind.isFault = false)
    (start line : Nat) :
    visible start line (c :: cs) =
      (place start line [(next c cs).1]).filter (fun t => !t.kind.isTrivia) ++
        visible (start + byteCount (next c cs).1.raw) (line + (next c cs).1.raw.count '\n')
          (next c cs).2 := by
  rw [visible, visible, all, h, if_neg Bool.false_ne_true, ← List.filter_append]
  rfl

theorem visible_dropSpaces (start line : Nat) (cs : List Char) :
    visible start line cs =
      visible (start + byteCount (cs.takeWhile isSpace))
        (line + (cs.takeWhile isSpace).count '\n') (cs.dropWhile isSpace) := by
  cases cs with
  | nil => rfl
  | cons c cs =>
      by_cases hspace : isSpace c = true
      · have hnext := next_space hspace cs
        rw [visible_next (by rw [hnext]; rfl), hnext, List.takeWhile_cons_of_pos hspace,
          List.dropWhile_cons_of_pos hspace]
        rfl
      · rw [List.takeWhile_cons_of_neg hspace, List.dropWhile_cons_of_neg hspace]
        rfl

/-- Spaces only move what comes after them. -/
theorem visible_spaces {spaces : List Char} (h : ∀ c ∈ spaces, isSpace c = true)
    (start line : Nat) (cs : List Char) :
    visible start line (spaces ++ cs) =
      visible (start + byteCount spaces) (line + spaces.count '\n') cs := by
  rw [visible_dropSpaces, visible_dropSpaces _ _ cs, List.takeWhile_append_of_pos h,
    List.dropWhile_append_of_pos h, byteCount_append, List.count_append, Nat.add_assoc,
    Nat.add_assoc]

theorem visible_spaces_newline {spaces : List Char} (h : ∀ c ∈ spaces, isSpace c = true)
    (start line : Nat) (more : List Char) :
    visible start line (spaces ++ '\n' :: more) =
      visible (start + (byteCount spaces + 1)) (line + (spaces.count '\n' + 1)) more := by
  have hbreak : ∀ c ∈ spaces ++ ['\n'], isSpace c = true := by
    rw [List.forall_mem_append]
    exact ⟨h, List.forall_mem_singleton.mpr rfl⟩
  rw [List.append_cons, visible_spaces hbreak, byteCount_append, List.count_append]
  rfl

/-- The tokens before the end of some characters are the same with a line break and more behind,
and what follows is split as if it began there. -/
theorem visible_newline {cs : List Char} (h : ∀ x ∈ all cs, x.kind.isFault = false)
    (start line : Nat) :
    ∃ front eof, visible start line cs = front ++ [eof] ∧
      ∀ more, visible start line (cs ++ '\n' :: more) =
        front ++ visible (start + (byteCount cs + 1)) (line + (cs.count '\n' + 1)) more := by
  fun_induction all cs generalizing start line with
  | case1 =>
      exact ⟨[], _, visible_nil start line,
        visible_spaces_newline (List.forall_mem_nil _) start line⟩
  | case2 c cs hfault =>
      have hnone := h _ List.mem_cons_self
      rw [hfault] at hnone
      cases hnone
  | case3 c cs hfault ih =>
      have hnext : (next c cs).1.kind.isFault = false := Bool.eq_false_iff.mpr hfault
      cases settled_next hnext with
      | inl hsettled =>
          obtain ⟨front, eof, hfront, hmore⟩ := ih (List.forall_mem_of_forall_mem_cons h)
            (start + byteCount (next c cs).1.raw) (line + (next c cs).1.raw.count '\n')
          refine ⟨(place start line [(next c cs).1]).filter (fun t => !t.kind.isTrivia) ++ front,
            eof, ?_, ?_⟩
          · rw [visible_next hnext, hfront, List.append_assoc]
          · intro more
            rw [List.cons_append, visible_next (by rw [hsettled]; exact hnext), hsettled, hmore,
              List.append_assoc, ← next_raw c cs, byteCount_append, List.count_append]
            simp only [Nat.add_assoc]
      | inr hspaces =>
          -- Only spaces are left, and the line break makes them one token.
          have hend := visible_spaces hspaces start line []
          rw [List.append_nil, visible_nil] at hend
          exact ⟨[], _, hend, visible_spaces_newline hspaces start line⟩

theorem place_shift (bytes lines start line : Nat) (xs : List Lexeme) :
    place (start + bytes) (line + lines) xs =
      (place start line xs).map (Token.shift bytes lines) := by
  induction xs generalizing start line with
  | nil => rfl
  | cons x xs ih =>
      simp only [place, List.map_cons, Nat.add_right_comm _ bytes, Nat.add_right_comm _ lines, ih]
      rfl

theorem visible_shift (bytes lines start line : Nat) (cs : List Char) :
    visible (start + bytes) (line + lines) cs =
      (visible start line cs).map (Token.shift bytes lines) := by
  rw [visible, place_shift, List.filter_map]
  rfl

end Lexeme

end HttpSuite
