import HttpSuite.Proofs.Expectation

/-!
The error of a source stands at its earliest mistake. What has been read before it begins some
document, whatever that would need to be complete, and together with the refused token it begins
none.
-/

namespace HttpSuite
namespace Document

open Grammar Expecting

/-- Kinds of tokens with which some document and the end of the input begin. -/
def Viable (kinds : List TokenKind) : Prop :=
  ∃ ts document, IsDocument ts document ∧ kinds <+: ts.map Token.kind ++ [.endOfInput]

namespace Expecting

/-- Kinds of tokens that complete a document. -/
def completion : Expecting → List TokenKind
  | block | nothing => []
  | driver => [.string, .string, .blockOpen, .blockClose]
  | blockName => [.string, .blockOpen, .blockClose]
  | blockOpen => [.blockOpen, .blockClose]
  | field => [.blockClose]
  | assign _ => [.assign, .string, .blockClose]
  | value => [.string, .blockClose]
  | item | separator => [.listClose, .blockClose]

/-- An expectation up to the name of the field for which it stands. -/
def bare : Expecting → Expecting
  | assign _ => assign ""
  | p => p

end Expecting

/-- A token of a kind that covers nothing. -/
def blankToken (kind : TokenKind) : Token :=
  ⟨kind, "", ⟨0, 0⟩, 0⟩

theorem read_completion {p : Expecting} (hp : p ≠ nothing) :
    p.read (p.completion.map blankToken) = .ok block := by
  cases p with
  | nothing => exact absurd rfl hp
  | _ => rfl

theorem after?_bare {p q : Expecting} {t u : Token} (hpq : p.bare = q.bare)
    (htu : t.kind = u.kind) : (p.after? t).map bare = (q.after? u).map bare := by
  cases p with
  | field =>
      cases q with
      | field =>
          simp only [after?, htu]
          split
          · rfl
          · split <;> rfl
      | _ => cases hpq
  | _ =>
      cases q <;> cases hpq
      all_goals simp only [after?, htu]

/-- What is expected depends on the kinds of tokens alone. -/
theorem read_congr {p q next : Expecting} {ts us : List Token} (hpq : p.bare = q.bare)
    (hkinds : ts.map Token.kind = us.map Token.kind) (h : p.read ts = .ok next) :
    ∃ other, q.read us = .ok other := by
  induction ts generalizing p q us with
  | nil =>
      cases List.map_eq_nil_iff.mp hkinds.symm
      exact ⟨q, rfl⟩
  | cons t ts ih =>
      cases us with
      | nil => cases hkinds
      | cons u us =>
          obtain ⟨hkind, hrest⟩ := List.cons.inj hkinds
          have hafter := after?_bare hpq hkind
          simp only [Expecting.read] at h ⊢
          cases ht : p.after? t with
          | none => rw [ht] at h; cases h
          | some p' =>
              rw [ht] at h hafter
              cases hu : q.after? u with
              | none => rw [hu] at hafter; cases hafter
              | some q' =>
                  rw [hu] at hafter
                  exact ih (Option.some.inj hafter) hrest h

/-- Tokens that are all expected can be completed. -/
theorem viable_of_read {ts : List Token} {p : Expecting} (h : block.read ts = .ok p)
    (hp : p ≠ nothing) : Viable (ts.map Token.kind) := by
  let more := p.completion.map blankToken
  have hcomplete : block.read (ts ++ more) = .ok block := by
    rw [read_append, h]
    exact read_completion hp
  have hblocks := read_blocks (ts ++ more)
  rw [read_append, hcomplete] at hblocks
  cases hdocument : blocks (ts ++ more) with
  | error e => rw [hdocument] at hblocks; cases hblocks
  | ok document =>
      obtain ⟨front, rest, hsplit, hfront, hend⟩ := blocks_ok hdocument
      cases rest with
      | nil =>
          rw [List.append_nil] at hsplit
          refine ⟨front, document, hfront, ?_⟩
          rw [← hsplit, List.map_append, List.append_assoc]
          exact List.prefix_append _ _
      | cons eof rest =>
          rw [hsplit] at hcomplete
          cases read_final (.inl (hend eof rfl)) hcomplete

theorem Viable.of_prefix {kinds front : List TokenKind} (h : Viable kinds)
    (hfront : front <+: kinds) : Viable front := by
  obtain ⟨ts, document, hdocument, hkinds⟩ := h
  exact ⟨ts, document, hdocument, hfront.trans hkinds⟩

/-- Tokens that begin a document are all expected. -/
theorem read_of_viable {ts : List Token} (h : Viable (ts.map Token.kind)) :
    ∃ p, block.read ts = .ok p := by
  obtain ⟨us, document, hdocument, rest, hkinds⟩ := h
  have hread := read_blocks (us ++ [absent])
  rw [blocks_append hdocument rfl, read_append] at hread
  have hmap : us.map Token.kind ++ [.endOfInput] = (us ++ [absent]).map Token.kind := by
    rw [List.map_append]
    rfl
  rw [hmap] at hkinds
  obtain ⟨front, more, hsplit, hfront, _⟩ := List.map_eq_append_iff.mp hkinds.symm
  rw [hsplit, read_append] at hread
  cases hstart : block.read front with
  | error e => rw [hstart] at hread; cases hread
  | ok p => exact read_congr rfl hfront hstart

end Document

namespace Lexeme

/-- The text of a fault is what is reported of it. -/
def Reports (x : Lexeme) : Prop :=
  ∀ cause, x.kind = .fault cause → x.text = cause.message

theorem faulty_reports (cause : LexicalFault) (raw : List Char) : (faulty cause raw).Reports := by
  intro other h
  cases h
  rfl

theorem reports_of_not_fault {x : Lexeme} (h : x.kind.isFault = false) : x.Reports := by
  intro cause hkind
  rw [hkind] at h
  cases h

theorem heredocBody_reports (opening delimiter cs : List Char) :
    (heredocBody opening delimiter cs).1.Reports := by
  simp only [heredocBody]
  split
  · exact reports_of_not_fault rfl
  · exact faulty_reports _ _

theorem heredocFrom_reports (mark cs : List Char) : (heredocFrom mark cs).1.Reports := by
  simp only [heredocFrom]
  split
  · exact faulty_reports _ _
  · split
    · exact heredocBody_reports _ _ _
    · exact heredocBody_reports _ _ _
    · exact faulty_reports _ _
    · exact faulty_reports _ _

theorem heredocOpening_reports (cs : List Char) : (heredocOpening cs).1.Reports := by
  simp only [heredocOpening]
  split
  · exact heredocFrom_reports _ _
  · exact faulty_reports _ _
  · exact faulty_reports _ _

theorem quotedText_reports (cs : List Char) : (quotedText cs).1.Reports := by
  simp only [quotedText]
  split
  · exact faulty_reports _ _
  · split
    · exact reports_of_not_fault rfl
    · exact faulty_reports _ _

theorem next_reports (c : Char) (cs : List Char) : (next c cs).1.Reports := by
  have hscan := scans_next c
  generalize next c = scan at hscan ⊢
  cases hscan with
  | @sign kind hsign =>
      refine reports_of_not_fault ?_
      show kind.isFault = false
      cases kind <;> first | rfl | cases hsign
  | string => exact quotedText_reports cs
  | heredoc => exact heredocOpening_reports cs
  | fault => exact faulty_reports _ _
  | _ => exact reports_of_not_fault rfl

theorem all_reports (cs : List Char) : ∀ x ∈ all cs, x.Reports := by
  fun_induction all cs with
  | case1 =>
      intro x hx
      cases List.mem_singleton.mp hx
      exact reports_of_not_fault rfl
  | case2 c cs _ =>
      intro x hx
      cases List.mem_singleton.mp hx
      exact next_reports c cs
  | case3 c cs _ ih =>
      intro x hx
      cases hx with
      | head => exact next_reports c cs
      | tail _ hx => exact ih x hx

end Lexeme

theorem Token.ofSource_reports {source : String} {t : Token} {cause : LexicalFault}
    (ht : t ∈ ofSource source) (h : t.kind = .fault cause) : t.text = cause.message := by
  obtain ⟨earlier, x, later, hsplit, rfl⟩ := Lexeme.mem_place ht
  have hmem : x ∈ Lexeme.all source.toList := by
    rw [hsplit]
    exact List.mem_append_right _ List.mem_cons_self
  exact Lexeme.all_reports _ x hmem cause h

open Document in
theorem earliest_error_is_reported (source : String) (e : SyntaxError)
    (h : parse source = .error e) :
    ∃ earlier t later, significant source = earlier ++ t :: later ∧
      (∀ front, front <+: earlier → Viable (front.map Token.kind)) ∧
      ¬ Viable ((earlier ++ [t]).map Token.kind) ∧
      e.span = t.span ∧ e.line = t.line ∧
      (e.IsLexical ↔ t.kind.isFault = true) ∧
      (e.IsLexical → e.message = t.text) ∧
      (¬ e.IsLexical → ∃ wanted, e.cause = .unexpected wanted t) := by
  have hread := read_significant source
  rw [h] at hread
  obtain ⟨earlier, t, later, q, hsplit, hearlier, hrefused, rfl⟩ := Expecting.read_error hread
  have hviable := viable_of_read hearlier (Expecting.ne_nothing hrefused)
  refine ⟨earlier, t, later, hsplit, fun front hfront => hviable.of_prefix (hfront.map _), ?_, ?_⟩
  · intro hmore
    obtain ⟨p, hp⟩ := read_of_viable hmore
    rw [Expecting.read_refused hearlier hrefused []] at hp
    cases hp
  · by_cases hfault : t.kind.isFault = true
    · cases hkind : t.kind with
      | fault cause =>
          have hmem : t ∈ Token.ofSource source := by
            refine List.mem_of_mem_filter (p := fun t => !t.kind.isTrivia) ?_
            rw [← significant, hsplit]
            exact List.mem_append_right _ List.mem_cons_self
          have hrefuse : q.refuse t = ⟨.lexical cause, t.span, t.line⟩ := by
            simp only [Expecting.refuse, hkind]
          rw [hrefuse, Token.ofSource_reports hmem hkind]
          exact ⟨rfl, rfl, ⟨fun _ => rfl, fun _ => ⟨cause, rfl⟩⟩, fun _ => rfl,
            fun hnot => absurd ⟨cause, rfl⟩ hnot⟩
      | _ => rw [hkind] at hfault; cases hfault
    · have hrefuse := Expecting.refuse_of_not_fault (p := q) (Bool.eq_false_iff.mpr hfault)
      have hnot : ¬ (q.refuse t).IsLexical := by
        rw [hrefuse]
        intro h
        obtain ⟨cause, hcause⟩ := h
        cases hcause
      refine ⟨?_, ?_, ⟨fun h => absurd h hnot, fun h => absurd h hfault⟩, fun h => absurd h hnot, ?_⟩
      · rw [hrefuse]
        rfl
      · rw [hrefuse]
        rfl
      · intro _
        exact ⟨q.wanted t.kind, by rw [hrefuse]; rfl⟩

open Document in
/-- The string that is not closed comes after a sign that stands in the place of a driver. -/
theorem sample_earliest_error :
    parse "a = \"b" = .error (.unexpected .driver ⟨.assign, "=", ⟨2, 3⟩, 1⟩) ∧
    (∃ fault ∈ significant "a = \"b", fault.kind = .fault .unterminatedString) ∧
    ∃ earlier t later, significant "a = \"b" = earlier ++ t :: later ∧
      Viable (earlier.map Token.kind) ∧ ¬ Viable ((earlier ++ [t]).map Token.kind) ∧
      t.span = ⟨2, 3⟩ ∧ t.line = 1 ∧ ¬ t.kind.isFault = true := by
  have hparse : parse "a = \"b" = .error (.unexpected .driver ⟨.assign, "=", ⟨2, 3⟩, 1⟩) := by
    decide +kernel
  obtain ⟨earlier, t, later, hsplit, hviable, hrefused, hspan, hline, hlexical, _⟩ :=
    earliest_error_is_reported _ _ hparse
  refine ⟨hparse, by decide +kernel, earlier, t, later, hsplit, hviable earlier List.prefix_rfl,
    hrefused, hspan.symm, hline.symm, ?_⟩
  intro hfault
  obtain ⟨cause, hcause⟩ := hlexical.mpr hfault
  cases hcause

end HttpSuite
