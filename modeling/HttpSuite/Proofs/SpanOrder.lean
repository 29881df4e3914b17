import HttpSuite.Proofs.Recognition

/-!
The order of a tree's spans. Tokens that stand in order give nodes that stand in order: each rule
of the grammar puts its node over its tokens, from the first to the last, and the nodes inside
it, each over some of them, follow one another.
-/

namespace HttpSuite

open HttpSuite.Text

/-- Spans between two places that cover something each and follow one another without overlap. -/
structure Span.InOrder (start stop : Nat) (spans : List Span) : Prop where
  bounds : start ≤ stop
  within : ∀ s ∈ spans, start ≤ s.start ∧ s.start < s.stop ∧ s.stop ≤ stop
  apart : spans.Pairwise fun s s' => s.stop ≤ s'.start

namespace Span

variable {start stop : Nat} {s : Span} {spans more xs ys : List Span}

theorem inOrder_nil : InOrder start stop [] ↔ start ≤ stop :=
  ⟨fun h => h.bounds, fun h => ⟨h, List.forall_mem_nil _, .nil⟩⟩

theorem inOrder_cons : InOrder start stop (s :: more) ↔
    start ≤ s.start ∧ s.start < s.stop ∧ InOrder s.stop stop more := by
  constructor
  · intro h
    obtain ⟨hstart, hsome, hstop⟩ := h.within s List.mem_cons_self
    have hapart := List.pairwise_cons.mp h.apart
    refine ⟨hstart, hsome, hstop, ?_, hapart.2⟩
    intro s' hs'
    exact ⟨hapart.1 s' hs', (h.within s' (List.mem_cons_of_mem s hs')).2⟩
  · rintro ⟨hstart, hsome, h⟩
    have hbounds := h.bounds
    refine ⟨by omega, ?_, List.pairwise_cons.mpr ⟨fun s' hs' => (h.within s' hs').1, h.apart⟩⟩
    intro s' hs'
    cases hs' with
    | head => exact ⟨hstart, hsome, hbounds⟩
    | tail _ hmem =>
        have hwithin := h.within s' hmem
        omega

theorem inOrder_single : InOrder start stop [s] ↔
    start ≤ s.start ∧ s.start < s.stop ∧ s.stop ≤ stop := by
  rw [inOrder_cons, inOrder_nil]

theorem InOrder.widen {start' stop' : Nat} (h : InOrder start stop spans) (hstart : start' ≤ start)
    (hstop : stop ≤ stop') : InOrder start' stop' spans where
  bounds := hstart.trans (h.bounds.trans hstop)
  within s hs := by
    have hwithin := h.within s hs
    omega
  apart := h.apart

theorem InOrder.sublist (h : InOrder start stop ys) (hxs : xs.Sublist ys) :
    InOrder start stop xs where
  bounds := h.bounds
  within s hs := h.within s (hxs.subset hs)
  apart := h.apart.sublist hxs

theorem inOrder_append : InOrder start stop (xs ++ ys) ↔
    ∃ middle, InOrder start middle xs ∧ InOrder middle stop ys := by
  induction xs generalizing start with
  | nil =>
      constructor
      · intro h
        exact ⟨start, inOrder_nil.mpr (Nat.le_refl start), h⟩
      · rintro ⟨middle, hnil, h⟩
        exact h.widen hnil.bounds (Nat.le_refl stop)
  | cons x xs ih =>
      simp only [List.cons_append, inOrder_cons, ih]
      constructor
      · rintro ⟨hstart, hsome, middle, hxs, hys⟩
        exact ⟨middle, ⟨hstart, hsome, hxs⟩, hys⟩
      · rintro ⟨middle, ⟨hstart, hsome, hxs⟩, hys⟩
        exact ⟨hstart, hsome, middle, hxs, hys⟩

end Span

open HttpSuite.Span

/-- The items of a list follow one another inside it. -/
def FieldValue.InOrder : FieldValue → Prop
  | text _ => True
  | list items span => Span.InOrder span.start span.stop (items.map Literal.span)

/-- The name of a field and its value follow one another inside it. -/
def Field.InOrder (f : Field) : Prop :=
  Span.InOrder f.span.start f.span.stop [f.name.span, f.value.span] ∧ f.value.InOrder

/-- The head of a block and its fields follow one another inside it. -/
def Block.InOrder (b : Block) : Prop :=
  Span.InOrder b.span.start b.span.stop
    (b.id.span :: b.driver.span :: b.name.span :: b.fields.map Field.span) ∧
  ∀ f ∈ b.fields, f.InOrder

namespace Grammar

/-- Repetitions are the pieces of what they make up. -/
theorem Many.split {α : Type} {rule : Production α} {ts : List Token} {as : List α} {a : α}
    (h : Many rule ts as) (ha : a ∈ as) :
    ∃ before piece after, ts = before ++ piece ++ after ∧ rule piece a := by
  induction h with
  | nil => cases ha
  | @cons piece rest b more head tail ih =>
      cases ha with
      | head => exact ⟨[], piece, rest, rfl, head⟩
      | tail _ hmem =>
          obtain ⟨before, piece', after, rfl, hpiece⟩ := ih hmem
          exact ⟨piece ++ before, piece', after, by simp only [List.append_assoc], hpiece⟩

/-- A rule whose tree has a span puts it where its tokens are. -/
def Spans {α : Type} (rule : Production α) (span : α → Span) : Prop :=
  ∀ ts a start stop, rule ts a → InOrder start stop (ts.map Token.span) →
    InOrder start stop [span a]

theorem Many.inOrder {α : Type} {rule : Production α} {span : α → Span} (hrule : Spans rule span)
    {ts : List Token} {as : List α} (h : Many rule ts as) {start stop : Nat}
    (hts : InOrder start stop (ts.map Token.span)) : InOrder start stop (as.map span) := by
  induction h generalizing start with
  | nil => exact hts
  | @cons piece rest a more head tail ih =>
      rw [List.map_append, inOrder_append] at hts
      obtain ⟨middle, hpiece, hrest⟩ := hts
      rw [List.map_cons, ← List.singleton_append, inOrder_append]
      exact ⟨middle, hrule piece a start middle head hpiece, ih hrest⟩

theorem spans_text : Spans IsText Literal.span := by
  intro ts item start stop h hts
  cases h with
  | token _ => exact hts

theorem spans_commaText : Spans IsCommaText Literal.span := by
  intro ts item start stop h hts
  cases h with
  | intro _ hitem => exact spans_text _ _ _ _ hitem (hts.sublist (List.sublist_cons_self _ _))

section Rules

variable {ts : List Token} {start stop : Nat} (hts : InOrder start stop (ts.map Token.span))

include hts

theorem IsItems.inOrder {items : List Literal} (h : IsItems ts items) :
    InOrder start stop (items.map Literal.span) := by
  cases h with
  | none => exact hts
  | @some first rest final item more hfirst hrest hfinal =>
      rw [List.map_append] at hts
      have hfront := hts.sublist (List.sublist_append_left _ _)
      rw [List.map_append, inOrder_append] at hfront
      obtain ⟨middle, hitem, hmore⟩ := hfront
      rw [List.map_cons, ← List.singleton_append, inOrder_append]
      exact ⟨middle, spans_text _ _ _ _ hfirst hitem, hrest.inOrder spans_commaText hmore⟩

theorem IsValue.inOrder {value : FieldValue} (h : IsValue ts value) :
    InOrder start stop [value.span] ∧ value.InOrder := by
  cases h with
  | text hitem => exact ⟨spans_text _ _ _ _ hitem hts, trivial⟩
  | @list opening closing ts items _ hitems _ =>
      rw [List.cons_append, List.map_cons, inOrder_cons, List.map_append, inOrder_append] at hts
      obtain ⟨hstart, hopening, middle, hinside, hclosing⟩ := hts
      rw [List.map_singleton, inOrder_single] at hclosing
      have hbounds := hinside.bounds
      refine ⟨inOrder_single.mpr ⟨hstart, ?_, hclosing.2.2⟩, ?_⟩
      · show opening.span.start < closing.span.stop
        omega
      · show InOrder opening.span.start closing.span.stop (items.map Literal.span)
        exact (hitems.inOrder hinside).widen (by omega) (by omega)

theorem IsField.inOrder {f : Field} (h : IsField ts f) : InOrder start stop [f.span] ∧ f.InOrder := by
  cases h with
  | @intro name assign ts value _ _ hvalue =>
      rw [List.map_cons, inOrder_cons, List.map_cons, inOrder_cons] at hts
      obtain ⟨hstart, hname, hassign, hsign, hinside⟩ := hts
      obtain ⟨hspan, hitems⟩ := hvalue.inOrder hinside
      have hwithin := inOrder_single.mp hspan
      refine ⟨inOrder_single.mpr ⟨hstart, ?_, hwithin.2.2⟩, ?_, hitems⟩
      · show name.span.start < value.span.stop
        omega
      · show InOrder name.span.start value.span.stop [name.span, value.span]
        rw [inOrder_cons, inOrder_single]
        exact ⟨Nat.le_refl _, hname, by omega, hwithin.2.1, Nat.le_refl _⟩

end Rules

theorem spans_field : Spans IsField Field.span :=
  fun _ _ _ _ h hts => (h.inOrder hts).1

theorem IsBlock.inOrder {ts : List Token} {b : Block} (h : IsBlock ts b) {start stop : Nat}
    (hts : InOrder start stop (ts.map Token.span)) : InOrder start stop [b.span] ∧ b.InOrder := by
  cases h with
  | @intro id opening closing first second body driver name fields _ hdriver hname _ hfields _ =>
      simp only [List.append_assoc, List.cons_append, List.map_append, List.map_cons, List.map_nil,
        inOrder_cons, inOrder_append] at hts
      obtain ⟨hstart, hid, afterDriver, hfirst, afterName, hsecond, hopen, hopening, afterFields,
        hbody, hclose, hclosing, hstop⟩ := hts
      have hspans : InOrder id.span.stop afterFields
          ([driver.span] ++ ([name.span] ++ fields.map Field.span)) := by
        have hinside : InOrder afterName afterFields (fields.map Field.span) :=
          (hfields.inOrder spans_field hbody).widen (by omega) (Nat.le_refl _)
        rw [inOrder_append]
        refine ⟨afterDriver, spans_text _ _ _ _ hdriver hfirst, ?_⟩
        rw [inOrder_append]
        exact ⟨afterName, spans_text _ _ _ _ hname hsecond, hinside⟩
      have hbounds := hspans.bounds
      rw [inOrder_nil] at hstop
      refine ⟨inOrder_single.mpr ⟨hstart, ?_, hstop⟩, ?_, ?_⟩
      · show id.span.start < closing.span.stop
        omega
      · show InOrder id.span.start closing.span.stop
          (id.span :: ([driver.span] ++ ([name.span] ++ fields.map Field.span)))
        rw [inOrder_cons]
        exact ⟨Nat.le_refl _, hid, hspans.widen (Nat.le_refl _) (by omega)⟩
      · intro f hf
        obtain ⟨before, piece, after, rfl, hpiece⟩ := hfields.split hf
        have hwithin : InOrder opening.span.stop afterFields (piece.map Token.span) :=
          hbody.sublist (by simp)
        exact (hpiece.inOrder hwithin).2

theorem spans_block : Spans IsBlock Block.span :=
  fun _ _ _ _ h hts => (h.inOrder hts).1

end Grammar
end HttpSuite
