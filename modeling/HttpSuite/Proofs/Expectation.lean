import HttpSuite.Proofs.Recognition

/-!
What the grammar expects between two tokens of a document. A token is either one of those that are
expected, and the next expectation follows from it, or it is refused. Reading tokens by these
steps alone refuses the token that the rules of the grammar refuse, with the same error, and
refuses none where they accept.
-/

namespace HttpSuite

/-- Whether the text itself is at fault, and not where a token stands. -/
def SyntaxError.IsLexical (e : SyntaxError) : Prop :=
  ∃ fault, e.cause = .lexical fault

namespace Document

/-- What may come next. A field is expected until a brace closes its block, an item until a bracket
closes its list, and a block until the input ends, after which nothing counts. -/
inductive Expecting where
  | block
  | driver
  | blockName
  | blockOpen
  | field
  | assign (field : String)
  | value
  | item
  | separator
  | nothing
  deriving DecidableEq

namespace Expecting

/-- What is expected after a token, if the token is. -/
def after? (t : Token) : Expecting → Option Expecting
  | block =>
    if t.kind = .identifier then some driver
    else if t.kind = .endOfInput then some nothing
    else none
  | driver => if t.kind.isText then some blockName else none
  | blockName => if t.kind.isText then some blockOpen else none
  | blockOpen => if t.kind == .blockOpen then some field else none
  | field =>
    if t.kind = .blockClose then some block
    else if t.kind = .identifier then some (assign t.text)
    else none
  | assign _ => if t.kind == .assign then some value else none
  | value =>
    if t.kind.isText then some field
    else if t.kind = .listOpen then some item
    else none
  | item =>
    if t.kind = .listClose then some field
    else if t.kind.isText then some separator
    else none
  | separator =>
    if t.kind = .listClose then some field
    else if t.kind = .comma then some item
    else none
  | nothing => some nothing

/-- What is wanted where another token is found. -/
def wanted (found : TokenKind) : Expecting → Wanted
  | block | nothing => .topLevelBlock
  | driver => .driver
  | blockName => .blockName
  | blockOpen => .blockOpen
  | field => if found = .endOfInput then .blockClose else .fieldName
  | assign name => .assign name
  | value => .value
  | item => .listItem
  | separator => .listSeparator

/-- The error at a token that is not expected. -/
def refuse (t : Token) (p : Expecting) : SyntaxError :=
  match t.kind with
  | .fault cause => ⟨.lexical cause, t.span, t.line⟩
  | _ => .unexpected (p.wanted t.kind) t

/-- What is expected after tokens, or the error at the first that is not expected. -/
def read (p : Expecting) : List Token → Except SyntaxError Expecting
  | [] => .ok p
  | t :: ts =>
    match p.after? t with
    | none => .error (p.refuse t)
    | some q => q.read ts

section Reading

variable {p q : Expecting} {t : Token} {ts xs ys rest : List Token} {e : SyntaxError}

theorem read_append (p : Expecting) (xs ys : List Token) :
    p.read (xs ++ ys) =
      match p.read xs with
      | .error e => .error e
      | .ok q => q.read ys := by
  induction xs generalizing p with
  | nil => rfl
  | cons t xs ih =>
      simp only [List.cons_append, read]
      cases p.after? t with
      | none => rfl
      | some q => exact ih q

theorem read_nothing (ts : List Token) : nothing.read ts = .ok nothing := by
  induction ts with
  | nil => rfl
  | cons t ts ih => exact ih

/-- Reading stops at a token that is not expected where it stands. -/
theorem read_error (h : p.read ts = .error e) :
    ∃ earlier t later q, ts = earlier ++ t :: later ∧ p.read earlier = .ok q ∧
      q.after? t = none ∧ e = q.refuse t := by
  induction ts generalizing p with
  | nil => cases h
  | cons t ts ih =>
      rw [read] at h
      cases hafter : p.after? t with
      | none =>
          rw [hafter] at h
          cases h
          exact ⟨[], t, ts, p, rfl, rfl, hafter, rfl⟩
      | some r =>
          rw [hafter] at h
          obtain ⟨earlier, u, later, q, rfl, hearlier, hrefused, rfl⟩ := ih h
          refine ⟨t :: earlier, u, later, q, rfl, ?_, hrefused, rfl⟩
          rw [read, hafter]
          exact hearlier

theorem read_refused (hxs : p.read xs = .ok q) (ht : q.after? t = none) (ys : List Token) :
    p.read (xs ++ t :: ys) = .error (q.refuse t) := by
  rw [read_append, hxs]
  simp only [read, ht]

theorem after?_fault (hp : p ≠ nothing) (ht : t.kind.isFault = true) : p.after? t = none := by
  cases hkind : t.kind with
  | fault cause =>
      cases p with
      | nothing => exact absurd rfl hp
      | _ => simp only [after?, hkind]; rfl
  | _ => rw [hkind] at ht; cases ht

/-- Nothing is expected after a final token. -/
theorem after?_final (ht : t.kind.IsFinal) (h : p.after? t = some q) : q = nothing := by
  cases ht with
  | inl hend => cases p <;> simp_all [after?, TokenKind.isText]
  | inr hfault =>
      by_cases hp : p = nothing
      · subst hp
        cases h
        rfl
      · rw [after?_fault hp hfault] at h
        cases h

theorem read_final (ht : t.kind.IsFinal) (h : p.read (xs ++ t :: ys) = .ok q) : q = nothing := by
  rw [read_append] at h
  cases hxs : p.read xs with
  | error e => rw [hxs] at h; cases h
  | ok r =>
      rw [hxs] at h
      simp only [read] at h
      cases hafter : r.after? t with
      | none => rw [hafter] at h; cases h
      | some next =>
          cases after?_final ht hafter
          rw [hafter] at h
          simp only [read_nothing] at h
          cases h
          rfl

theorem refuse_of_not_fault (ht : t.kind.isFault = false) :
    p.refuse t = .unexpected (p.wanted t.kind) t := by
  unfold refuse
  split
  · next hkind => rw [hkind] at ht; cases ht
  · rfl

theorem ne_nothing (h : p.after? t = none) : p ≠ nothing := by
  rintro rfl
  cases h

theorem read_take_error (hp : p ≠ nothing) (h : take ts = .error e) :
    p.read (ts ++ [absent]) = .error e := by
  cases ts with
  | nil => cases h
  | cons t ts =>
      simp only [take] at h
      split at h
      · next cause hkind =>
          cases h
          have hrefused := after?_fault hp (t := t) (by rw [hkind]; rfl)
          simp only [List.cons_append, read, hrefused, refuse, hkind]
      · cases h

theorem take_not_fault (h : take ts = .ok (t, rest)) : t.kind.isFault = false := by
  cases ts with
  | nil => cases h; rfl
  | cons u ts =>
      simp only [take] at h
      split at h
      · cases h
      · next hkind =>
          cases h
          cases hfault : t.kind with
          | fault cause => exact absurd hfault (hkind cause)
          | _ => rfl

theorem read_take_refused (h : take ts = .ok (t, rest)) (ht : p.after? t = none) :
    p.read (ts ++ [absent]) = .error (.unexpected (p.wanted t.kind) t) := by
  rw [← refuse_of_not_fault (take_not_fault h)]
  rcases take_cases h with rfl | ⟨rfl, rfl, _⟩
  · simp only [List.cons_append, read, ht]
  · simp only [List.nil_append, read, ht]

theorem read_take_expected (h : take ts = .ok (t, rest)) (hend : t.kind ≠ .endOfInput)
    (ht : p.after? t = some q) : p.read (ts ++ [absent]) = q.read (rest ++ [absent]) := by
  rw [take_ok h hend]
  simp only [List.cons_append, read, ht]

end Reading
end Expecting

open Expecting

/-- A rule does what the steps from one expectation to another do, whatever follows. Tokens end
where `absent` is read. -/
def Follows {α : Type} (p q : Expecting) (rule : Rule α) : Prop :=
  ∀ ts, p.read (ts ++ [absent]) =
    match rule ts with
    | .error e => .error e
    | .ok (_, rest) => q.read (rest ++ [absent])

theorem follows_expect {p q : Expecting} {wanted : Wanted} {holds : TokenKind → Bool}
    (hafter : ∀ t, p.after? t = if holds t.kind then some q else none)
    (hwanted : ∀ kind, p.wanted kind = wanted) (hend : holds .endOfInput = false) :
    Follows p q (expect wanted holds) := by
  intro ts
  have hp : p ≠ nothing := ne_nothing (t := absent) ((hafter absent).trans (by simp [absent, hend]))
  simp only [expect]
  cases htake : take ts with
  | error e => exact read_take_error hp htake
  | ok taken =>
      obtain ⟨t, rest⟩ := taken
      have ht := hafter t
      cases hholds : holds t.kind with
      | true =>
          have hkind : t.kind ≠ .endOfInput := by
            intro hkind
            rw [hkind, hend] at hholds
            cases hholds
          rw [hholds] at ht
          simp only [read_take_expected htake hkind ht, hholds, if_true]
      | false =>
          rw [hholds] at ht
          simp only [read_take_refused htake ht, hwanted, hholds, Bool.false_eq_true, if_false]

theorem follows_text {p q : Expecting} {wanted : Wanted}
    (hafter : ∀ t, p.after? t = if t.kind.isText then some q else none)
    (hwanted : ∀ kind, p.wanted kind = wanted) : Follows p q (text wanted) := by
  intro ts
  rw [follows_expect hafter hwanted rfl ts]
  simp only [text]
  cases expect wanted TokenKind.isText ts <;> rfl

theorem item_after?_text {t : Token} (ht : t.kind.isText = true) :
    item.after? t = some separator :=
  (if_neg (ne_listClose_of_isText ht)).trans (if_pos ht)

theorem separator_after?_comma {t : Token} (ht : t.kind = .comma) :
    separator.after? t = some item :=
  (if_neg (by rw [ht]; decide)).trans (if_pos ht)

theorem follows_items : Follows item field items := by
  intro ts
  fun_induction items ts with
  | case1 ts e htake => exact read_take_error (by decide) htake
  | case2 ts closing rest htake hclosing =>
      exact read_take_expected htake (by rw [hclosing]; decide) (if_pos hclosing)
  | case3 ts t rest htake hopen ht e htake' =>
      rw [read_take_expected htake (ne_end_of_isText ht) (item_after?_text ht)]
      exact read_take_error (by decide) htake'
  | case4 ts t rest htake hopen ht _ closing rest' htake' hclosing =>
      rw [read_take_expected htake (ne_end_of_isText ht) (item_after?_text ht)]
      exact read_take_expected htake' (by rw [hclosing]; decide) (if_pos hclosing)
  | case5 ts t rest htake hopen ht comma rest' htake' _ hcomma _ hitems ih =>
      rw [read_take_expected htake (ne_end_of_isText ht) (item_after?_text ht),
        read_take_expected htake' (by rw [hcomma]; decide) (separator_after?_comma hcomma),
        ih, hitems]
  | case6 ts t rest htake hopen ht _ comma rest' htake' hsep hcomma more stop rest'' hitems ih =>
      rw [read_take_expected htake (ne_end_of_isText ht) (item_after?_text ht),
        read_take_expected htake' (by rw [hcomma]; decide) (separator_after?_comma hcomma),
        ih, hitems]
  | case7 ts t rest htake hopen ht other rest' htake' hclosing hcomma =>
      have hafter : separator.after? other = none := (if_neg hclosing).trans (if_neg hcomma)
      rw [read_take_expected htake (ne_end_of_isText ht) (item_after?_text ht)]
      exact read_take_refused htake' hafter
  | case8 ts t rest htake hclosing ht =>
      have hafter : item.after? t = none := (if_neg hclosing).trans (if_neg ht)
      exact read_take_refused htake hafter

theorem follows_fieldValue : Follows value field fieldValue := by
  intro ts
  simp only [fieldValue]
  cases htake : take ts with
  | error e => exact read_take_error (by decide) htake
  | ok taken =>
      obtain ⟨t, rest⟩ := taken
      by_cases ht : t.kind.isText = true
      · simp only [if_pos ht]
        exact read_take_expected htake (ne_end_of_isText ht) (if_pos ht)
      · by_cases hopening : t.kind = .listOpen
        · have hafter : value.after? t = some item := (if_neg ht).trans (if_pos hopening)
          rw [read_take_expected htake (by rw [hopening]; decide) hafter, follows_items rest]
          simp only [if_neg ht, if_pos hopening]
          cases items rest <;> rfl
        · have hafter : value.after? t = none := (if_neg ht).trans (if_neg hopening)
          simp only [if_neg ht, if_neg hopening]
          exact read_take_refused htake hafter

theorem follows_assign (name : String) :
    Follows (assign name) value (expect (.assign name) (· == .assign)) :=
  follows_expect (fun _ => rfl) (fun _ => rfl) rfl

theorem follows_fieldAfter (name : Token) : Follows (assign name.text) field (fieldAfter name) := by
  intro ts
  rw [follows_assign name.text ts]
  simp only [fieldAfter]
  cases expect (.assign name.text) (· == .assign) ts with
  | error e => rfl
  | ok taken =>
      obtain ⟨_, rest⟩ := taken
      simp only [follows_fieldValue rest]
      cases fieldValue rest <;> rfl

theorem field_after?_name {t : Token} (ht : t.kind = .identifier) :
    field.after? t = some (assign t.text) :=
  (if_neg (by rw [ht]; decide)).trans (if_pos ht)

theorem follows_fields : Follows field block fields := by
  intro ts
  fun_induction fields ts with
  | case1 ts e htake => exact read_take_error (by decide) htake
  | case2 ts closing rest htake hclosing =>
      exact read_take_expected htake (by rw [hclosing]; decide) (if_pos hclosing)
  | case3 ts t rest htake _ hend =>
      have hafter : field.after? t = none := by simp only [after?, hend]; rfl
      have hwanted : field.wanted t.kind = .blockClose := if_pos hend
      rw [read_take_refused htake hafter, hwanted]
  | case4 ts name rest htake _ hend hname _ hfield =>
      rw [read_take_expected htake hend (field_after?_name hname), follows_fieldAfter name rest,
        hfield]
  | case5 ts name rest htake _ hend hname _ rest' hfield _ hfields ih =>
      rw [read_take_expected htake hend (field_after?_name hname), follows_fieldAfter name rest,
        hfield]
      simp only
      rw [ih, hfields]
  | case6 ts name rest htake _ hend hname _ rest' hfield _ _ _ hfields ih =>
      rw [read_take_expected htake hend (field_after?_name hname), follows_fieldAfter name rest,
        hfield]
      simp only
      rw [ih, hfields]
  | case7 ts t rest htake hclosing hend hname =>
      have hafter : field.after? t = none := (if_neg hclosing).trans (if_neg hname)
      have hwanted : field.wanted t.kind = .fieldName := if_neg hend
      rw [read_take_refused htake hafter, hwanted]

theorem follows_blockAfter (id : Token) : Follows driver block (blockAfter id) := by
  have hdriver : Follows driver blockName (text .driver) :=
    follows_text (fun _ => rfl) fun _ => rfl
  have hname : Follows blockName blockOpen (text .blockName) :=
    follows_text (fun _ => rfl) fun _ => rfl
  have hopening : Follows blockOpen field (expect .blockOpen (· == .blockOpen)) :=
    follows_expect (fun _ => rfl) (fun _ => rfl) rfl
  intro ts
  rw [hdriver ts]
  simp only [blockAfter]
  cases text .driver ts with
  | error e => rfl
  | ok read =>
      obtain ⟨_, rest⟩ := read
      simp only [hname rest]
      cases text .blockName rest with
      | error e => rfl
      | ok read =>
          obtain ⟨_, rest⟩ := read
          simp only [hopening rest]
          cases expect .blockOpen (· == .blockOpen) rest with
          | error e => rfl
          | ok read =>
              obtain ⟨_, rest⟩ := read
              simp only [follows_fields rest]
              cases fields rest <;> rfl

theorem block_after?_id {t : Token} (ht : t.kind = .identifier) : block.after? t = some driver :=
  if_pos ht

/-- The rules of the grammar and the steps from one expectation to the next agree on all tokens:
on what is refused, on where it is refused and on the error. -/
theorem read_blocks (ts : List Token) :
    block.read (ts ++ [absent]) =
      match blocks ts with
      | .error e => .error e
      | .ok _ => .ok nothing := by
  fun_induction blocks ts with
  | case1 ts e htake => exact read_take_error (by decide) htake
  | case2 ts eof rest htake heof =>
      have hafter : block.after? eof = some nothing :=
        (if_neg (by rw [heof]; decide)).trans (if_pos heof)
      rcases take_cases htake with rfl | ⟨rfl, rfl, _⟩
      · simp only [List.cons_append, Expecting.read, hafter, read_nothing]
      · rfl
  | case3 ts id rest htake hend hid e hblock =>
      rw [read_take_expected htake hend (block_after?_id hid), follows_blockAfter id rest, hblock]
  | case4 ts id rest htake hend hid _ rest' hblock _ hblocks ih =>
      rw [read_take_expected htake hend (block_after?_id hid), follows_blockAfter id rest, hblock]
      simp only
      rw [ih, hblocks]
  | case5 ts id rest htake hend hid _ rest' hblock _ hblocks ih =>
      rw [read_take_expected htake hend (block_after?_id hid), follows_blockAfter id rest, hblock]
      simp only
      rw [ih, hblocks]
  | case6 ts t rest htake hend hid =>
      have hafter : block.after? t = none := (if_neg hid).trans (if_neg hend)
      rw [read_take_refused htake hafter]
      rfl

/-- The tokens of a source that the grammar sees. -/
def significant (source : String) : List Token :=
  (Token.ofSource source).filter fun t => !t.kind.isTrivia

theorem significant_shape (source : String) :
    ∃ init last, significant source = init ++ [last] ∧ last.kind.IsFinal ∧
      ∀ t ∈ init, ¬ t.kind.IsFinal := by
  obtain ⟨init, last, _, hsource, _, hinit, hlast⟩ := Token.ofSource_shape source
  have hfinal : last.kind.IsFinal := hlast.imp And.left id
  refine ⟨init.filter fun t => !t.kind.isTrivia, last, ?_, hfinal, ?_⟩
  · rw [significant, hsource, filter_trivia hfinal]
  · intro t ht
    exact hinit t (List.mem_of_mem_filter ht)

/-- A source is refused where the steps refuse it, and with that error. -/
theorem read_significant (source : String) :
    block.read (significant source) =
      match parse source with
      | .error e => .error e
      | .ok _ => .ok nothing := by
  obtain ⟨init, last, hsource, hlast, _⟩ := significant_shape source
  have hblocks := read_blocks (significant source)
  rw [read_append] at hblocks
  cases hread : block.read (significant source) with
  | error e =>
      rw [hread] at hblocks
      exact hblocks
  | ok q =>
      have hq : q = nothing := read_final hlast (hsource ▸ hread)
      rw [hread, hq] at hblocks
      rw [hq]
      exact hblocks

end Document
end HttpSuite
