import HttpSuite.Number.Whole
import HttpSuite.Proofs.Agreement

/-!
Captures of integers. A number is captured through its double, so an integer of a JSON body is
stored as the digits of the nearest one that a double holds. These are its own digits up to 53
significant bits, and two longer integers can be stored as the same text.
-/

namespace HttpSuite

open HttpSuite.Text

/-- The integer at a path of a JSON body. -/
def Json.integerAt? (body : List UInt8) (path : String) : Option Int :=
  match property body path with
  | .ok (.number (.integer n)) => some n
  | _ => none

theorem Json.property_of_integerAt? {body : List UInt8} {path : String} {n : Int}
    (h : integerAt? body path = some n) : property body path = .ok (.number (.integer n)) := by
  rw [integerAt?] at h
  split at h
  · next hfound =>
      cases h
      exact hfound
  · cases h

/-- An integer of a JSON body has the text of the nearest whole double. -/
theorem Json.propertyText_integer {body : List UInt8} {path : String} {n : Int}
    (h : property body path = .ok (.number (.integer n))) (hleast : leastWord ≤ n)
    (hmost : n ≤ greatestIndex) :
    ∃ k, Binary64.IsNearest n k ∧ propertyText .int body path = .ok (toString k) := by
  obtain ⟨k, hnearest, hwhole⟩ := Binary64.ofInt_isWhole_of_le (natAbs_le_of_word hleast hmost)
  refine ⟨k, hnearest, ?_⟩
  simp only [propertyText, h, scalarText, Number.toDouble, NumericType.places, hwhole.fixed_zero]

namespace Capture

/-- Captures of a JSON field without places. -/
inductive OfInteger (path into : String) : Capture → Prop where
  | response : OfInteger path into (.response .jsonBody path into .int)
  | outletJsonField : OfInteger path into (.outletJsonField path into .int)

theorem OfInteger.assignment_eq {path into p name text : String} {c : Capture}
    (h : c.OfInteger path into) {scope : Template.Scope} (hp : scope.evaluate path = .ok p)
    (hname : scope.evaluate into = .ok name) {response : Response}
    (htext : Json.propertyText .int response.body p = .ok text) (now : Instant)
    (reference : String) :
    c.assignment scope (some response) now reference = .ok (some (name, text)) := by
  have hfind : VariableSource.jsonBody.find .int response p = .ok (some text) :=
    congrArg (Except.map some) htext
  cases h with
  | response =>
      rw [assignment_response, hp, hname]
      exact congrArg (bound reference name) hfind
  | outletJsonField =>
      rw [assignment_outletJsonField, hp, hname]
      exact congrArg (bound reference name) hfind

end Capture

namespace Family

variable {family : Family} {i : Nat} {r : Resource} {name : String} {n : Int}

/-- A resource captures under a name what the response of a context has at a path, and that is an
integer of 64 bits. -/
def CapturesInteger (family : Family) (i : Nat) (r : Resource) (name : String) (n : Int) : Prop :=
  ∃ c path into p response, r.kind = .capture c ∧ c.OfInteger path into ∧
    (family.scope i).evaluate path = .ok p ∧ (family.scope i).evaluate into = .ok name ∧
    (family.context i).response = some response ∧
    Json.property response.body p = .ok (.number (.integer n)) ∧
    leastWord ≤ n ∧ n ≤ greatestIndex

/-- What a variable of a context holds once a resource has been executed there. -/
def stored (family : Family) (transport : Transport) (clock : Clock) (i : Nat) (r : Resource)
    (name : String) : Option String :=
  ((family.exec transport clock i r).2.context i).bindings.get? name

theorem CapturesInteger.exec_eq (h : family.CapturesInteger i r name n) (transport : Transport)
    (clock : Clock) :
    ∃ k, Binary64.IsNearest n k ∧
      family.exec transport clock i r = (.ok (), family.capture i name (toString k)) ∧
      family.stored transport clock i r name = some (toString k) := by
  obtain ⟨c, path, into, p, response, hkind, hinteger, hp, hname, hresponse, hfound, hleast,
    hmost⟩ := h
  obtain ⟨k, hnearest, htext⟩ := Json.propertyText_integer hfound hleast hmost
  have hexec : family.exec transport clock i r =
      (.ok (), family.capture i name (toString k)) := by
    rw [family.exec_capture transport clock i hkind, hresponse,
      hinteger.assignment_eq hp hname htext]
  refine ⟨k, hnearest, hexec, ?_⟩
  rw [stored, hexec, capture_context hresponse, Bindings.get?_set, if_pos rfl]

end Family

/-- A captured integer is stored as the nearest that a double holds, so as it is if a double holds
it. Two integers are stored alike if the same one is nearest to both. -/
theorem integer_captures_store_nearest (transport : Transport) (clock : Clock) (family : Family)
    (i : Nat) (r : Resource) (name : String) (n : Int) (h : family.CapturesInteger i r name n) :
    (∃ k, Binary64.IsNearest n k ∧
      family.exec transport clock i r = (.ok (), family.capture i name (toString k)) ∧
      family.stored transport clock i r name = some (toString k)) ∧
    (family.stored transport clock i r name = some (toString n) ↔ Binary64.Representable n) ∧
    ∀ (other : Family) (j : Nat) (s : Resource) (name' : String) (n' : Int),
      other.CapturesInteger j s name' n' →
      (family.stored transport clock i r name = other.stored transport clock j s name' ↔
        ∃ k, Binary64.IsNearest n k ∧ Binary64.IsNearest n' k) := by
  obtain ⟨k, hnearest, hexec, hstored⟩ := h.exec_eq transport clock
  refine ⟨⟨k, hnearest, hexec, hstored⟩, ?_, ?_⟩
  · rw [hstored, Option.some.injEq, toString_int_inj, hnearest.eq_iff]
  · intro other j s name' n' h'
    obtain ⟨k', hnearest', _, hstored'⟩ := h'.exec_eq transport clock
    rw [hstored, hstored', Option.some.injEq, toString_int_inj]
    constructor
    · rintro rfl
      exact ⟨k, hnearest, hnearest'⟩
    · intro ⟨q, hq, hq'⟩
      exact (hq.unique hnearest).trans (hq'.unique hnearest').symm

/-- Two powers of two, through both kinds of captures. -/
theorem sample_integer_captures :
    let capture := Resource.bare "1" "http_variable" "a"
      (.capture (.response .jsonBody "n" "x" .int))
    let outlet := Resource.bare "2" "http_outlet_json_field" "b"
      (.capture (.outletJsonField "m[0]" "x" .int))
    let transport : Transport := fun _ _ => .ok ⟨200, [], []⟩
    let clock : Clock := fun n => ⟨n, 0⟩
    let family := Family.alone .empty ⟨.empty, some ⟨200, [], encode
      "\x7b\"n\": 1152921504606846976, \"m\": [-9223372036854775808]\x7d"⟩⟩ .initial
    family.CapturesInteger 0 capture "x" 1152921504606846976 ∧
      family.CapturesInteger 0 outlet "x" (-9223372036854775808) ∧
      Binary64.Representable 1152921504606846976 ∧
      Binary64.Representable (-9223372036854775808) ∧
      family.stored transport clock 0 capture "x" = some "1152921504606846976" ∧
      family.stored transport clock 0 outlet "x" = some "-9223372036854775808" ∧
      family.stored transport clock 0 capture "x" ≠ family.stored transport clock 0 outlet "x" := by
  intro capture outlet transport clock family
  have hcapture : family.CapturesInteger 0 capture "x" 1152921504606846976 :=
    ⟨_, "n", "x", "n", _, rfl, .response, by decide +kernel, by decide +kernel, rfl,
      Json.property_of_integerAt? (by decide +kernel), by decide, by decide⟩
  have houtlet : family.CapturesInteger 0 outlet "x" (-9223372036854775808) :=
    ⟨_, "m[0]", "x", "m[0]", _, rfl, .outletJsonField, by decide +kernel, by decide +kernel, rfl,
      Json.property_of_integerAt? (by decide +kernel), by decide, by decide⟩
  have hn : Binary64.Representable 1152921504606846976 := ⟨1, 60, by decide, by decide⟩
  have hm : Binary64.Representable (-9223372036854775808) := ⟨1, 63, by decide, by decide⟩
  obtain ⟨_, hstored, hapart⟩ :=
    integer_captures_store_nearest transport clock family 0 capture "x" _ hcapture
  obtain ⟨_, hstored', _⟩ :=
    integer_captures_store_nearest transport clock family 0 outlet "x" _ houtlet
  refine ⟨hcapture, houtlet, hn, hm, hstored.mpr hn, hstored'.mpr hm, ?_⟩
  intro hsame
  obtain ⟨k, hnearest, hnearest'⟩ := (hapart family 0 outlet "x" _ houtlet).mp hsame
  have heq := hnearest.eq_iff.mpr hn
  have heq' := hnearest'.eq_iff.mpr hm
  omega

/-- The first integer that no double holds is stored as the one before it. -/
theorem adjacent_integers_stored_alike :
    let capture := Resource.bare "1" "http_variable" "a"
      (.capture (.response .jsonBody "n" "id" .int))
    let transport : Transport := fun _ _ => .ok ⟨200, [], []⟩
    let clock : Clock := fun n => ⟨n, 0⟩
    let body (n : Int) := encode ("\x7b\"n\": " ++ toString n ++ "\x7d")
    let family (n : Int) := Family.alone .empty ⟨.empty, some ⟨200, [], body n⟩⟩ .initial
    ∀ n ∈ [(9007199254740992 : Int), 9007199254740993],
      (family n).CapturesInteger 0 capture "id" n ∧
      (family n).stored transport clock 0 capture "id" = some "9007199254740992" := by
  intro capture transport clock body family
  have hruns : ∀ n ∈ [(9007199254740992 : Int), 9007199254740993],
      ((family n).scope 0).evaluate "n" = .ok "n" ∧
      ((family n).scope 0).evaluate "id" = .ok "id" ∧
      Json.integerAt? (body n) "n" = some n ∧ leastWord ≤ n ∧ n ≤ greatestIndex ∧
      (family n).stored transport clock 0 capture "id" = some "9007199254740992" := by
    decide +kernel
  intro n hn
  obtain ⟨hp, hname, hfound, hleast, hmost, hstored⟩ := hruns n hn
  exact ⟨⟨_, "n", "id", "n", _, rfl, .response, hp, hname, rfl, Json.property_of_integerAt? hfound,
    hleast, hmost⟩, hstored⟩

end HttpSuite
