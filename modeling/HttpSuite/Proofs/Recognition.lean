import HttpSuite.Proofs.Derivation

/-!
The reading of documents accepts what the grammar derives and nothing else. For each rule there
are two statements: what it has read derives what it gives, and where tokens derive a tree the
rule reads them and leaves what follows.
-/

namespace HttpSuite
namespace Document

open Grammar

section Tokens

variable {wanted : Wanted} {holds : TokenKind → Bool} {ts rest front : List Token} {t : Token}
  {item : Literal}

theorem take_ok (h : take ts = .ok (t, rest)) (ht : t.kind ≠ .endOfInput) : ts = t :: rest := by
  rcases take_cases h with hcons | ⟨_, rfl, _⟩
  · exact hcons
  · exact absurd rfl ht

theorem take_cons (ht : t.kind.isFault = false) (ts : List Token) :
    take (t :: ts) = .ok (t, ts) := by
  simp only [take]
  split
  · next cause hkind =>
      rw [hkind] at ht
      cases ht
  · rfl

theorem expect_ok (hend : holds .endOfInput = false)
    (h : expect wanted holds ts = .ok (t, rest)) : ts = t :: rest ∧ holds t.kind = true := by
  simp only [expect] at h
  split at h
  · cases h
  · next htake =>
      split at h
      · next hholds =>
          cases h
          refine ⟨take_ok htake ?_, hholds⟩
          intro hkind
          rw [hkind, hend] at hholds
          cases hholds
      · cases h

theorem expect_cons (ht : t.kind.isFault = false) (hholds : holds t.kind = true)
    (ts : List Token) : expect wanted holds (t :: ts) = .ok (t, ts) := by
  simp only [expect, take_cons ht, hholds, if_true]

theorem text_ok (h : text wanted ts = .ok (item, rest)) :
    ∃ front, ts = front ++ rest ∧ IsText front item := by
  simp only [text] at h
  split at h
  · cases h
  · next t _ hexpect =>
      cases h
      obtain ⟨rfl, ht⟩ := expect_ok rfl hexpect
      exact ⟨[t], rfl, .token ht⟩

theorem isFault_of_isText (h : t.kind.isText = true) : t.kind.isFault = false := by
  cases hkind : t.kind with
  | fault cause => rw [hkind] at h; cases h
  | _ => rfl

theorem ne_end_of_isText (h : t.kind.isText = true) : t.kind ≠ .endOfInput := by
  intro hkind
  rw [hkind] at h
  cases h

theorem ne_listClose_of_isText (h : t.kind.isText = true) : t.kind ≠ .listClose := by
  intro hkind
  rw [hkind] at h
  cases h

theorem text_append (h : IsText front item) (rest : List Token) :
    text wanted (front ++ rest) = .ok (item, rest) := by
  cases h with
  | token ht =>
      simp only [text]
      rw [List.singleton_append, expect_cons (isFault_of_isText ht) ht]

end Tokens

section Items

variable {ts rest body final : List Token} {t closing comma : Token} {item : Literal}
  {more : List Literal} {stop : Nat}

theorem items_closing (hclosing : closing.kind = .listClose) (rest : List Token) :
    items (closing :: rest) = .ok (([], closing.span.stop), rest) := by
  obtain ⟨kind, text, span, line⟩ := closing
  cases hclosing
  rw [items]
  rfl

theorem items_last (ht : t.kind.isText = true) (hclosing : closing.kind = .listClose)
    (rest : List Token) :
    items (t :: closing :: rest) = .ok (([⟨t.text, t.span⟩], closing.span.stop), rest) := by
  have htake := take_cons (isFault_of_isText ht) (closing :: rest)
  have hnext := take_cons (t := closing) (by rw [hclosing]; rfl) rest
  rw [items]
  split
  · next h => rw [htake] at h; cases h
  · next h =>
      rw [htake] at h
      cases h
      rw [if_neg (ne_listClose_of_isText ht), dif_pos ht]
      split
      · next h' => rw [hnext] at h'; cases h'
      · next h' =>
          rw [hnext] at h'
          cases h'
          exact if_pos hclosing

theorem items_comma (ht : t.kind.isText = true) (hcomma : comma.kind = .comma)
    (hmore : items ts = .ok ((more, stop), rest)) :
    items (t :: comma :: ts) = .ok ((⟨t.text, t.span⟩ :: more, stop), rest) := by
  have htake := take_cons (isFault_of_isText ht) (comma :: ts)
  have hnext := take_cons (t := comma) (by rw [hcomma]; rfl) ts
  rw [items]
  split
  · next h => rw [htake] at h; cases h
  · next h =>
      rw [htake] at h
      cases h
      rw [if_neg (ne_listClose_of_isText ht), dif_pos ht]
      split
      · next h' => rw [hnext] at h'; cases h'
      · next h' =>
          rw [hnext] at h'
          cases h'
          simp only [hcomma, hmore, reduceCtorEq, if_false, if_true]

theorem items_ok {values : List Literal} (h : items ts = .ok ((values, stop), rest)) :
    ∃ body closing, ts = body ++ closing :: rest ∧ closing.kind = .listClose ∧
      closing.span.stop = stop ∧ IsItems body values := by
  fun_induction items ts generalizing values with
  | case1 => cases h
  | case2 ts closing rest' htake hclosing =>
      cases h
      exact ⟨[], closing, take_ok htake (by rw [hclosing]; decide), hclosing, rfl, .none⟩
  | case3 => cases h
  | case4 ts t rest' htake _ ht item closing rest htake' =>
      rename_i hclosing
      cases h
      have hts := take_ok htake (ne_end_of_isText ht)
      have hrest := take_ok htake' (by rw [hclosing]; decide)
      exact ⟨[t], closing, hts.trans (congrArg _ hrest), hclosing, rfl, .single (.token ht)⟩
  | case5 => cases h
  | case6 ts t rest' htake _ ht item comma rest'' htake' _ hcomma more stop' rest hmore =>
      rename_i ih
      cases h
      obtain ⟨body, closing, rfl, hclosing, hstop, hbody⟩ := ih hmore
      have hts := take_ok htake (ne_end_of_isText ht)
      have hrest := take_ok htake' (by rw [hcomma]; decide)
      exact ⟨[t] ++ comma :: body, closing, hts.trans (congrArg _ hrest), hclosing, hstop,
        .cons (.token ht) hcomma hbody⟩
  | case7 => cases h
  | case8 => cases h

theorem items_append_some {first seps : List Token} (hfirst : IsText first item)
    (hseps : Many IsCommaText seps more) (hfinal : IsOptionalComma final)
    (hclosing : closing.kind = .listClose) (rest : List Token) :
    items (first ++ (seps ++ (final ++ closing :: rest))) =
      .ok ((item :: more, closing.span.stop), rest) := by
  induction hseps generalizing first item with
  | nil =>
      cases hfirst with
      | token ht =>
          cases hfinal with
          | absent => exact items_last ht hclosing rest
          | present hcomma => exact items_comma ht hcomma (items_closing hclosing rest)
  | cons head tail ih =>
      cases hfirst with
      | token ht =>
          cases head with
          | intro hcomma hitem =>
              rw [List.cons_append, List.append_assoc]
              exact items_comma ht hcomma (ih hitem)

theorem items_append {values : List Literal} (h : IsItems body values)
    (hclosing : closing.kind = .listClose) (rest : List Token) :
    items (body ++ closing :: rest) = .ok ((values, closing.span.stop), rest) := by
  cases h with
  | none => exact items_closing hclosing rest
  | some hfirst hseps hfinal =>
      rw [List.append_assoc, List.append_assoc]
      exact items_append_some hfirst hseps hfinal hclosing rest

end Items
section Fields

variable {ts rest front body : List Token} {t name closing : Token} {value : FieldValue}
  {field : Field} {more values : List Field} {stop : Nat}

theorem fieldValue_ok (h : fieldValue ts = .ok (value, rest)) :
    ∃ front, ts = front ++ rest ∧ IsValue front value := by
  simp only [fieldValue] at h
  split at h
  · cases h
  · next t rest' htake =>
      split at h
      · next ht =>
          cases h
          exact ⟨[t], take_ok htake (ne_end_of_isText ht), .text (.token ht)⟩
      · split at h
        · next hopening =>
            split at h
            · cases h
            · next hitems =>
                cases h
                obtain ⟨body, closing, rfl, hclosing, rfl, hbody⟩ := items_ok hitems
                have hts := take_ok htake (by rw [hopening]; decide)
                refine ⟨t :: body ++ [closing], ?_, .list hopening hbody hclosing⟩
                rw [hts, List.append_assoc]
                rfl
        · cases h

theorem fieldValue_append (h : IsValue front value) (rest : List Token) :
    fieldValue (front ++ rest) = .ok (value, rest) := by
  cases h with
  | text hitem =>
      cases hitem with
      | token ht =>
          simp only [fieldValue, List.cons_append, List.nil_append,
            take_cons (isFault_of_isText ht), ht, if_true]
  | @list opening closing body items hopening hitems hclosing =>
      have htake := take_cons (t := opening) (by rw [hopening]; rfl)
      have hrest := items_append hitems hclosing rest
      simp only [fieldValue, List.cons_append, List.append_assoc, List.nil_append, htake,
        hopening, hrest, TokenKind.isText, if_true, Bool.false_eq_true, if_false]

theorem fieldAfter_ok (hname : name.kind = .identifier)
    (h : fieldAfter name ts = .ok (field, rest)) :
    ∃ front, ts = front ++ rest ∧ IsField (name :: front) field := by
  simp only [fieldAfter] at h
  split at h
  · cases h
  · next assign rest' hexpect =>
      split at h
      · cases h
      · next value rest'' hvalue =>
          cases h
          obtain ⟨rfl, hassign⟩ := expect_ok rfl hexpect
          obtain ⟨front, rfl, hfront⟩ := fieldValue_ok hvalue
          exact ⟨assign :: front, rfl, .intro hname (eq_of_beq hassign) hfront⟩

theorem fieldAfter_append (h : IsField front field) :
    ∃ name after, front = name :: after ∧ name.kind = .identifier ∧
      ∀ rest, fieldAfter name (after ++ rest) = .ok (field, rest) := by
  cases h with
  | @intro name assign body value hname hassign hvalue =>
      refine ⟨name, assign :: body, rfl, hname, ?_⟩
      intro rest
      have hexpect : ∀ ts, expect (.assign name.text) (· == .assign) (assign :: ts) =
          .ok (assign, ts) :=
        expect_cons (by rw [hassign]; rfl) (by rw [hassign]; rfl)
      simp only [fieldAfter, List.cons_append, hexpect, fieldValue_append hvalue]

theorem fields_closing (hclosing : closing.kind = .blockClose) (rest : List Token) :
    fields (closing :: rest) = .ok (([], closing.span.stop), rest) := by
  obtain ⟨kind, text, span, line⟩ := closing
  cases hclosing
  rw [fields]
  rfl

theorem fields_cons (hname : name.kind = .identifier)
    (hfield : fieldAfter name ts = .ok (field, front))
    (hmore : fields front = .ok ((more, stop), rest)) :
    fields (name :: ts) = .ok ((field :: more, stop), rest) := by
  have htake := take_cons (t := name) (by rw [hname]; rfl) ts
  rw [fields]
  split
  · next h => rw [htake] at h; cases h
  · next h =>
      rw [htake] at h
      cases h
      rw [if_neg (by rw [hname]; decide), dif_neg (by rw [hname]; decide), if_pos hname]
      split
      · next h' => rw [hfield] at h'; cases h'
      · next h' =>
          rw [hfield] at h'
          cases h'
          rw [hmore]

theorem fields_ok (h : fields ts = .ok ((values, stop), rest)) :
    ∃ body closing, ts = body ++ closing :: rest ∧ closing.kind = .blockClose ∧
      closing.span.stop = stop ∧ Many IsField body values := by
  fun_induction fields ts generalizing values with
  | case1 => cases h
  | case2 ts closing rest' htake hclosing =>
      cases h
      exact ⟨[], closing, take_ok htake (by rw [hclosing]; decide), hclosing, rfl, .nil⟩
  | case3 => cases h
  | case4 => cases h
  | case5 => cases h
  | case6 ts name rest' htake _ hend hname field rest'' hfield more stop' rest hmore ih =>
      cases h
      obtain ⟨body, closing, rfl, hclosing, hstop, hbody⟩ := ih hmore
      obtain ⟨front, rfl, hfront⟩ := fieldAfter_ok hname hfield
      have hts := take_ok htake hend
      refine ⟨name :: front ++ body, closing, ?_, hclosing, hstop, .cons hfront hbody⟩
      rw [hts, List.append_assoc]
      rfl
  | case7 => cases h

theorem fields_append (h : Many IsField body values) (hclosing : closing.kind = .blockClose)
    (rest : List Token) :
    fields (body ++ closing :: rest) = .ok ((values, closing.span.stop), rest) := by
  induction h with
  | nil => exact fields_closing hclosing rest
  | cons head tail ih =>
      obtain ⟨name, after, rfl, hname, hfield⟩ := fieldAfter_append head
      rw [List.append_assoc]
      exact fields_cons hname (hfield _) ih

end Fields
section Blocks

variable {ts rest front : List Token} {t id : Token} {block : Block} {document more : Document}

theorem blockAfter_ok (hid : id.kind = .identifier) (h : blockAfter id ts = .ok (block, rest)) :
    ∃ front, ts = front ++ rest ∧ IsBlock (id :: front) block := by
  simp only [blockAfter] at h
  split at h
  · cases h
  · next driver _ hdriver =>
      split at h
      · cases h
      · next name _ hname =>
          split at h
          · cases h
          · next opening _ hopening =>
              split at h
              · cases h
              · next fields _ _ hfields =>
                  cases h
                  obtain ⟨first, rfl, hfirst⟩ := text_ok hdriver
                  obtain ⟨second, rfl, hsecond⟩ := text_ok hname
                  obtain ⟨rfl, hkind⟩ := expect_ok rfl hopening
                  obtain ⟨body, closing, rfl, hclosing, rfl, hbody⟩ := fields_ok hfields
                  refine ⟨first ++ second ++ opening :: body ++ [closing], ?_,
                    .intro hid hfirst hsecond (eq_of_beq hkind) hbody hclosing⟩
                  simp only [List.append_assoc, List.cons_append, List.nil_append]

theorem blockAfter_append (h : IsBlock front block) :
    ∃ id after, front = id :: after ∧ id.kind = .identifier ∧
      ∀ rest, blockAfter id (after ++ rest) = .ok (block, rest) := by
  cases h with
  | @intro id opening closing first second body _ _ _ hid hdriver hname hopening hfields hclosing =>
      refine ⟨id, first ++ second ++ opening :: body ++ [closing], rfl, hid, ?_⟩
      intro rest
      have hexpect : ∀ ts, expect .blockOpen (· == .blockOpen) (opening :: ts) =
          .ok (opening, ts) :=
        expect_cons (by rw [hopening]; rfl) (by rw [hopening]; rfl)
      simp only [blockAfter, List.append_assoc, List.cons_append, List.nil_append,
        text_append hdriver, text_append hname, hexpect, fields_append hfields hclosing]

theorem blocks_end (ht : t.kind = .endOfInput) (ts : List Token) :
    blocks (t :: ts) = .ok [] := by
  obtain ⟨kind, text, span, line⟩ := t
  cases ht
  rw [blocks]
  rfl

theorem blocks_cons (hid : id.kind = .identifier)
    (hblock : blockAfter id ts = .ok (block, rest)) :
    blocks (id :: ts) =
      match blocks rest with
      | .error e => .error e
      | .ok more => .ok (block :: more) := by
  have htake := take_cons (t := id) (by rw [hid]; rfl) ts
  rw [blocks]
  split
  · next h => rw [htake] at h; cases h
  · next h =>
      rw [htake] at h
      cases h
      rw [if_neg (by rw [hid]; decide), dif_pos hid]
      split
      · next h' => rw [hblock] at h'; cases h'
      · next h' =>
          rw [hblock] at h'
          cases h'
          rfl

/-- Tokens that are read as a document derive it up to the end of the input. -/
theorem blocks_ok (h : blocks ts = .ok document) :
    ∃ front rest, ts = front ++ rest ∧ IsDocument front document ∧
      ∀ t ∈ rest.head?, t.kind = .endOfInput := by
  fun_induction blocks ts generalizing document with
  | case1 => cases h
  | case2 ts t rest' htake ht =>
      cases h
      refine ⟨[], ts, rfl, .nil, ?_⟩
      rcases take_cases htake with rfl | ⟨rfl, _⟩
      · rintro _ ⟨⟩
        exact ht
      · rintro _ ⟨⟩
  | case3 => cases h
  | case4 => cases h
  | case5 ts id rest' htake _ hid block rest'' hblock more hmore ih =>
      cases h
      obtain ⟨front, rest, rfl, hfront, hend⟩ := ih hmore
      obtain ⟨first, rfl, hfirst⟩ := blockAfter_ok hid hblock
      have hts := take_ok htake (by rw [hid]; decide)
      refine ⟨id :: first ++ front, rest, ?_, .cons hfirst hfront, hend⟩
      rw [hts, List.append_assoc]
      rfl
  | case6 => cases h

/-- A document is read up to its end, whatever follows. -/
theorem blocks_document (h : IsDocument front document) (ts : List Token) :
    blocks (front ++ ts) =
      match blocks ts with
      | .error e => .error e
      | .ok more => .ok (document ++ more) := by
  induction h with
  | nil => cases hts : blocks ts <;> simp only [List.nil_append, hts]
  | cons head tail ih =>
      obtain ⟨id, after, rfl, hid, hblock⟩ := blockAfter_append head
      rw [List.append_assoc, List.cons_append, blocks_cons hid (hblock _), ih]
      cases blocks ts <;> rfl

theorem blocks_append (h : IsDocument front document) (ht : t.kind = .endOfInput)
    (ts : List Token) : blocks (front ++ t :: ts) = .ok document := by
  rw [blocks_document h, blocks_end ht]
  simp only [List.append_nil]

end Blocks
/-- The tokens of a source that the grammar sees, the last one apart. -/
theorem filter_trivia {tokens : List Token} {last : Token} (hlast : last.kind.IsFinal) :
    (tokens ++ [last]).filter (fun t => !t.kind.isTrivia) =
      tokens.filter (fun t => !t.kind.isTrivia) ++ [last] := by
  have hkept : (!last.kind.isTrivia) = true := by
    cases hkind : last.kind with
    | whitespace => rw [hkind] at hlast; rcases hlast with h | h <;> cases h
    | comment => rw [hkind] at hlast; rcases hlast with h | h <;> cases h
    | _ => rfl
  rw [List.filter_append, List.filter_singleton, hkept, cond_true]

theorem parse_ok_of_derives {source : String} {document : Document}
    (h : Derives source document) : parse source = .ok document := by
  obtain ⟨tokens, last, hsource, hlast, _, hdocument⟩ := h
  rw [parse, hsource, filter_trivia (.inl hlast)]
  exact blocks_append hdocument hlast []

theorem derives_of_parse_ok {source : String} {document : Document}
    (h : parse source = .ok document) : Derives source document := by
  obtain ⟨init, last, _, hsource, _, hinit, hlast⟩ := Token.ofSource_shape source
  have hfinal : last.kind.IsFinal := by
    rcases hlast with ⟨hend, _⟩ | hfault
    · exact .inl hend
    · exact .inr hfault
  rw [parse, hsource, filter_trivia hfinal] at h
  obtain ⟨front, rest, hsplit, hdocument, hend⟩ := blocks_ok h
  cases rest with
  | nil =>
      -- The last token would be a closing brace.
      rw [List.append_nil] at hsplit
      rcases hdocument.closed with rfl | ⟨body, closing, rfl, hclosing⟩
      · cases List.append_ne_nil_of_right_ne_nil _ (List.cons_ne_nil _ _) hsplit
      · obtain ⟨_, hsame⟩ := List.append_inj' hsplit rfl
        cases hsame
        rw [hclosing] at hfinal
        rcases hfinal with hkind | hkind <;> cases hkind
  | cons eof more =>
      have heof : eof.kind = .endOfInput := hend eof rfl
      rcases List.eq_nil_or_concat more with rfl | ⟨middle, other, rfl⟩
      · obtain ⟨rfl, hsame⟩ := List.append_inj' hsplit rfl
        cases hsame
        refine ⟨init, last, hsource, heof, ?_, hdocument⟩
        intro t ht
        exact Bool.eq_false_iff.mpr fun hfault => hinit t ht (.inr hfault)
      · -- The end of the input would stand before the last token.
        rw [List.concat_eq_append, ← List.cons_append, ← List.append_assoc] at hsplit
        obtain ⟨hinner, _⟩ := List.append_inj' hsplit rfl
        have hmem : eof ∈ init.filter fun t => !t.kind.isTrivia := by
          rw [hinner]
          exact List.mem_append_right _ List.mem_cons_self
        exact absurd (.inl heof) (hinit eof (List.mem_of_mem_filter hmem))

theorem leaves_of_derives {source : String} {document : Document}
    (h : Derives source document) :
    document.leaves = Token.leaves (Token.ofSource source) := by
  obtain ⟨tokens, last, hsource, hlast, _, hdocument⟩ := h
  rw [hsource, Token.leaves_append, Token.leaves_mark (by rw [hlast]; rfl), ← hdocument.leaves,
    Token.leaves_filter_trivia]
  exact (List.append_nil _).symm

end Document

theorem parse_reads_grammar (source : String) :
    (∀ document, Document.parse source = .ok document ↔ Grammar.Derives source document) ∧
    (∀ tokens document document', Grammar.IsDocument tokens document →
      Grammar.IsDocument tokens document' → document = document') ∧
    ∀ document, Document.parse source = .ok document →
      document.leaves = Token.leaves (Token.ofSource source) := by
  refine ⟨?_, ?_, ?_⟩
  · intro document
    exact ⟨Document.derives_of_parse_ok, Document.parse_ok_of_derives⟩
  · intro tokens document document' h h'
    have hread := Document.blocks_append h (t := Document.absent) rfl []
    rw [Document.blocks_append h' rfl []] at hread
    cases hread
    rfl
  · intro document h
    exact Document.leaves_of_derives (Document.derives_of_parse_ok h)

end HttpSuite
