import HttpSuite.Proofs.References
import HttpSuite.Proofs.Tables

/-!
Headers of requests. Spellings that differ in the case of ASCII letters only name one header. Once
pairs of names and values have been set in order, each header stands where its name first occurs,
spelled as it is there, with the value of the last pair of its name. The headers of every request
that an execution sends come from those of a step in this way.
-/

namespace HttpSuite

open HttpSuite.Text

namespace Text

theorem sameName_iff {a b : String} :
    sameName a b = true ↔ a.toList.map Char.toLower = b.toList.map Char.toLower :=
  beq_iff_eq

theorem sameName_self (a : String) : sameName a a = true :=
  sameName_iff.mpr rfl

theorem sameName_comm (a b : String) : sameName a b = sameName b a := by
  rw [Bool.eq_iff_iff, sameName_iff, sameName_iff, eq_comm]

/-- Two spellings of a name agree on what else is a spelling of it. -/
theorem sameName_congr {a b : String} (h : sameName a b = true) (c : String) :
    sameName a c = sameName b c := by
  rw [Bool.eq_iff_iff, sameName_iff, sameName_iff, sameName_iff.mp h]

end Text

namespace Headers

def names (headers : Headers) : List String :=
  headers.map Prod.fst

/-- Sets pairs in order. -/
def setAll (headers : Headers) (pairs : List (String × String)) : Headers :=
  pairs.foldl (fun headers (name, value) => headers.set name value) headers

/-- The value of the last pair of a name. -/
def lastOf? (name : String) (pairs : List (String × String)) : Option String :=
  (pairs.reverse.find? fun p => sameName p.1 name).map Prod.snd

/-- What headers are once pairs have been set in order where there were none. -/
structure Collects (pairs : List (String × String)) (headers : Headers) : Prop where
  apart : headers.names.Pairwise fun a b => sameName a b = false
  spelled : headers.names = (pairs.map Prod.fst).eraseDupsBy sameName
  valued : ∀ h ∈ headers, lastOf? h.1 pairs = some h.2
  complete : ∀ p ∈ pairs, ∃ h ∈ headers, sameName h.1 p.1 = true
  found : ∀ name, headers.get? name = lastOf? name pairs

theorem setAll_cons (headers : Headers) (p : String × String) (more : List (String × String)) :
    headers.setAll (p :: more) = (headers.set p.1 p.2).setAll more := rfl

theorem lastOf?_cons (name : String) (p : String × String) (more : List (String × String)) :
    lastOf? name (p :: more) =
      (lastOf? name more).or (if sameName p.1 name then some p.2 else none) := by
  rw [lastOf?, find?_reverse_cons, Option.map_or, apply_ite (Option.map Prod.snd)]
  rfl

theorem lastOf?_of_mem {p : String × String} {pairs : List (String × String)} (hp : p ∈ pairs) :
    ∃ value, lastOf? p.1 pairs = some value := by
  rw [← Option.isSome_iff_exists, lastOf?, Option.isSome_map, List.find?_isSome]
  exact ⟨p, List.mem_reverse.mpr hp, sameName_self p.1⟩

theorem names_set (headers : Headers) (name value : String) :
    (headers.set name value).names =
      if headers.names.any (fun n => sameName n name) then headers.names
      else headers.names ++ [name] := by
  induction headers with
  | nil => rfl
  | cons h more ih =>
      obtain ⟨n, v⟩ := h
      simp only [names] at ih
      cases hn : sameName n name with
      | true => simp [set, names, hn]
      | false =>
          simp only [set, names, hn, Bool.false_eq_true, if_false, List.map_cons, List.any_cons,
            Bool.false_or, ih]
          exact apply_ite (n :: ·) _ _ _

theorem get?_set (headers : Headers) (name value other : String) :
    (headers.set name value).get? other =
      if sameName name other then some value else headers.get? other := by
  induction headers with
  | nil => rfl
  | cons h more ih =>
      obtain ⟨n, v⟩ := h
      by_cases hn : sameName n name = true
      · simp only [set, if_pos hn, get?, sameName_congr hn other]
        split <;> rfl
      · simp only [set, if_neg hn, get?, ih]
        by_cases hother : sameName name other = true
        · have hapart : ¬ sameName n other = true := by
            rwa [sameName_comm n, ← sameName_congr hother, sameName_comm]
          simp only [if_pos hother, if_neg hapart]
        · simp only [if_neg hother]

theorem apart_set {headers : Headers}
    (h : headers.names.Pairwise fun a b => sameName a b = false) (name value : String) :
    (headers.set name value).names.Pairwise fun a b => sameName a b = false := by
  rw [names_set]
  split
  · exact h
  · next hnew =>
      simp only [List.any_eq_true, not_exists, not_and, Bool.not_eq_true] at hnew
      refine List.pairwise_append.mpr ⟨h, List.pairwise_singleton _ _, ?_⟩
      intro a ha b hb
      cases List.mem_singleton.mp hb
      exact hnew a ha

theorem get?_of_mem {headers : Headers}
    (hapart : headers.names.Pairwise fun a b => sameName a b = false) {h : String × String}
    (hh : h ∈ headers) : headers.get? h.1 = some h.2 := by
  induction headers with
  | nil => cases hh
  | cons first more ih =>
      obtain ⟨hfirst, hmore⟩ := List.pairwise_cons.mp hapart
      rw [get?]
      cases hh with
      | head => rw [if_pos (sameName_self h.1)]
      | tail _ hh =>
          rw [hfirst h.1 (List.mem_map_of_mem hh)]
          exact ih hmore hh

theorem mem_of_get? {headers : Headers} {name value : String}
    (h : headers.get? name = some value) : ∃ n, (n, value) ∈ headers ∧ sameName n name = true := by
  induction headers with
  | nil => cases h
  | cons first more ih =>
      rw [get?] at h
      split at h
      · next hn =>
          cases h
          exact ⟨first.1, List.mem_cons_self, hn⟩
      · obtain ⟨n, hmem, hn⟩ := ih h
        exact ⟨n, List.mem_cons_of_mem _ hmem, hn⟩

/-- A pair that is set later is found first. -/
theorem get?_setAll (headers : Headers) (pairs : List (String × String)) (name : String) :
    (headers.setAll pairs).get? name = (lastOf? name pairs).or (headers.get? name) := by
  induction pairs generalizing headers with
  | nil => rfl
  | cons p more ih =>
      rw [setAll_cons, ih, get?_set, lastOf?_cons, Option.or_assoc]
      congr 1
      split <;> rfl

theorem apart_setAll {headers : Headers}
    (h : headers.names.Pairwise fun a b => sameName a b = false)
    (pairs : List (String × String)) :
    (headers.setAll pairs).names.Pairwise fun a b => sameName a b = false := by
  induction pairs generalizing headers with
  | nil => exact h
  | cons p more ih => exact ih (apart_set h p.1 p.2)

/-- Names that are new follow those that are there, each where it first occurs. -/
theorem names_setAll (headers : Headers) (pairs : List (String × String)) :
    (headers.setAll pairs).names = headers.names ++
      ((pairs.map Prod.fst).filter fun n =>
        !headers.names.any fun m => sameName m n).eraseDupsBy sameName := by
  induction pairs generalizing headers with
  | nil => exact (List.append_nil _).symm
  | cons p more ih =>
      rw [setAll_cons, ih, names_set, List.map_cons]
      cases hp : headers.names.any fun m => sameName m p.1 with
      | true => simp [hp]
      | false =>
          have hfilter : ((more.map Prod.fst).filter fun n =>
              !(headers.names ++ [p.1]).any fun m => sameName m n) =
              ((more.map Prod.fst).filter fun n => !headers.names.any fun m => sameName m n).filter
                fun n => decide (sameName n p.1 = false) := by
            rw [List.filter_filter]
            refine List.filter_congr fun n _ => ?_
            cases hn : sameName n p.1 <;> simp [sameName_comm p.1, hn]
          rw [if_neg Bool.false_ne_true, hfilter, List.filter_cons, hp, Bool.not_false, if_pos rfl,
            List.eraseDupsBy_cons, List.append_assoc, List.singleton_append]

theorem collects_setAll (pairs : List (String × String)) :
    Collects pairs (setAll [] pairs) := by
  have hfound : ∀ name, (setAll [] pairs).get? name = lastOf? name pairs := by
    intro name
    rw [get?_setAll]
    exact Option.or_none
  have hapart : (setAll [] pairs).names.Pairwise fun a b => sameName a b = false :=
    apart_setAll List.Pairwise.nil pairs
  refine ⟨hapart, ?_, ?_, ?_, hfound⟩
  · rw [names_setAll]
    simp [names]
  · intro h hh
    rw [← hfound]
    exact get?_of_mem hapart hh
  · intro p hp
    obtain ⟨value, hvalue⟩ := lastOf?_of_mem hp
    rw [← hfound] at hvalue
    obtain ⟨n, hmem, hn⟩ := mem_of_get? hvalue
    exact ⟨(n, value), hmem, hn⟩

end Headers

namespace Step

/-- What the templates of headers stand for, pair by pair. -/
def HeadersStandFor (scope : Template.Scope) (given pairs : List (String × String)) : Prop :=
  List.Forall₂ (fun g p => scope.evaluate g.1 = .ok p.1 ∧ scope.evaluate g.2 = .ok p.2) given pairs

theorem evaluateHeaders_ok_iff {scope : Template.Scope} {headers result : Headers}
    {given : List (String × String)} :
    evaluateHeaders scope headers given = .ok result ↔
      ∃ pairs, HeadersStandFor scope given pairs ∧ result = headers.setAll pairs := by
  induction given generalizing headers with
  | nil => simp [evaluateHeaders, HeadersStandFor, Headers.setAll, eq_comm]
  | cons g more ih =>
      simp only [evaluateHeaders, bind_eq_ok_iff, ih]
      constructor
      · rintro ⟨name, hname, value, hvalue, pairs, hpairs, rfl⟩
        exact ⟨(name, value) :: pairs, .cons ⟨hname, hvalue⟩ hpairs, rfl⟩
      · rintro ⟨pairs, hpairs, rfl⟩
        cases hpairs with
        | cons hfirst hmore => exact ⟨_, hfirst.1, _, hfirst.2, _, hmore, rfl⟩

theorem request_headers {scope : Template.Scope} {step : Step} {request : Request}
    (h : step.request scope = .ok request) :
    ∃ pairs, HeadersStandFor scope step.headers pairs ∧
      request.headers = Headers.setAll [] pairs := by
  simp only [Step.request, bind_eq_ok_iff] at h
  obtain ⟨_, _, _, _, _, _, headers, hheaders, hrequest⟩ := h
  cases hrequest
  exact evaluateHeaders_ok_iff.mp hheaders

end Step

/-- Whatever a computation sends is of one kind. -/
def Run.SendsOnly {α : Type} (kind : Request → Prop) (x : Run α) : Prop :=
  ∀ s, ∀ q ∈ (x s).2.sent, q ∈ s.sent ∨ kind q

namespace Run.SendsOnly

variable {α β : Type} {kind : Request → Prop}

theorem of_sent {x : Run α} (h : ∀ s, (x s).2.sent = s.sent) : SendsOnly kind x := by
  intro s q hq
  rw [h] at hq
  exact .inl hq

theorem bind {x : Run α} {f : α → Run β} (hx : SendsOnly kind x)
    (hf : ∀ s a, (x s).1 = .ok a → SendsOnly kind (f a)) : SendsOnly kind (x >>= f) := by
  intro s
  have hs := hx s
  have hfs := hf s
  rw [bind_apply]
  generalize x s = result at hs hfs ⊢
  obtain ⟨outcome, s'⟩ := result
  cases outcome with
  | error e => exact hs
  | ok a =>
      intro q hq
      rcases hfs a rfl s' q hq with hbefore | hkind
      · exact hs q hbefore
      · exact .inr hkind

theorem forM {f : α → Run Unit} (hf : ∀ a, SendsOnly kind (f a)) (xs : List α) :
    SendsOnly kind (xs.forM f) := by
  induction xs with
  | nil => exact of_sent fun _ => rfl
  | cons a more ih =>
      rw [List.forM_eq_forM, List.forM_cons]
      exact bind (hf a) fun _ _ _ => ih

end Run.SendsOnly

namespace Environment

variable (env : Environment) {kind : Request → Prop}

/-- A request that the step of a resource, or of a registered one, comes to in some scope. -/
def Requests (r : Resource) (q : Request) : Prop :=
  ∃ owner step bindings, (owner = r ∨ owner ∈ env.registry.resources) ∧
    owner.kind = .step step ∧ step.request (env.registry.scope bindings) = .ok q

theorem Requests.of_registered {target r : Resource} {q : Request}
    (htarget : target ∈ env.registry.resources) (h : env.Requests target q) :
    env.Requests r q := by
  obtain ⟨owner, step, bindings, howner, hrequest⟩ := h
  refine ⟨owner, step, bindings, .inr ?_, hrequest⟩
  exact howner.elim (fun hsame => hsame ▸ htarget) id

theorem runAssertion_sendsOnly (reference : String) (a : Assertion) :
    Run.SendsOnly kind (env.runAssertion reference a) := by
  refine .of_sent fun s => ?_
  rw [runAssertion_apply]

theorem runCapture_sendsOnly (reference : String) (c : Capture) :
    Run.SendsOnly kind (env.runCapture reference c) := by
  refine .of_sent fun s => ?_
  rw [runCapture_apply]
  split <;> rfl

theorem send_sendsOnly {request : Request} (h : kind request) :
    Run.SendsOnly kind (env.send request) := by
  intro s q hq
  have hsent : (env.send request s).2.sent = s.sent ++ [request] := by
    rw [send_apply]
    split <;> rfl
  rw [hsent] at hq
  rcases List.mem_append.mp hq with hbefore | hlast
  · exact .inl hbefore
  · cases List.mem_singleton.mp hlast
    exact .inr h

theorem follow_sendsOnly {exec : Resource → Run Unit}
    (hexec : ∀ target ∈ env.registry.resources, Run.SendsOnly kind (exec target)) (l : Link) :
    Run.SendsOnly kind (env.follow exec l) := by
  cases htarget : l.target? env.registry with
  | error e =>
      refine .of_sent fun s => ?_
      rw [follow_apply, htarget]
  | ok target =>
      rw [follow_of_target? htarget]
      exact hexec target (Link.target?_mem htarget)

theorem runStep_sendsOnly {exec : Resource → Run Unit} {step : Step}
    (hfollow : ∀ l, Run.SendsOnly kind (env.follow exec l))
    (hrequest : ∀ bindings q, step.request (env.registry.scope bindings) = .ok q → kind q) :
    Run.SendsOnly kind (env.runStep exec step) := by
  rw [runStep_eq]
  refine .bind (.of_sent fun _ => rfl) fun _ _ _ => ?_
  refine .bind (.forM hfollow step.captures) fun _ _ _ => ?_
  refine .bind (.of_sent fun s => by rw [stepRequest_apply]) fun s request hbuilt => ?_
  rw [stepRequest_apply] at hbuilt
  refine .bind (env.send_sendsOnly (hrequest s.bindings request hbuilt)) fun _ _ _ => ?_
  refine .bind (.of_sent fun _ => rfl) fun _ _ _ => ?_
  refine .bind (.forM hfollow step.assertions) fun _ _ _ => ?_
  exact .forM hfollow step.captures

/-- By induction on the levels: the steps below a resource are registered. -/
theorem runNested_sendsOnly (levels : Nat) (r : Resource) :
    Run.SendsOnly (env.Requests r) (env.runNested levels r) := by
  induction levels generalizing r with
  | zero =>
      unfold runNested
      cases hkind : r.kind with
      | assertion a => exact env.runAssertion_sendsOnly r.reference a
      | capture c => exact env.runCapture_sendsOnly r.reference c
      | step _ | test _ => exact .of_sent fun _ => rfl
  | succ levels ih =>
      have hfollow : ∀ l, Run.SendsOnly (env.Requests r) (env.follow (env.runNested levels) l) := by
        refine env.follow_sendsOnly fun target htarget s q hq => ?_
        exact (ih target s q hq).imp_right (Requests.of_registered env htarget)
      unfold runNested
      cases hkind : r.kind with
      | assertion a => exact env.runAssertion_sendsOnly r.reference a
      | capture c => exact env.runCapture_sendsOnly r.reference c
      | test steps => exact .forM hfollow steps
      | step s =>
          exact env.runStep_sendsOnly hfollow fun bindings q hq =>
            ⟨r, s, bindings, .inl rfl, hkind, hq⟩

end Environment

theorem request_headers_keep_first_spelling :
    (∀ pairs, Headers.Collects pairs (Headers.setAll [] pairs)) ∧
    ∀ (env : Environment) (r : Resource) (s : State), ∀ q ∈ (env.exec r s).2.sent,
      q ∈ s.sent ∨
        ∃ owner step bindings pairs, (owner = r ∨ owner ∈ env.registry.resources) ∧
          owner.kind = .step step ∧
          Step.HeadersStandFor (env.registry.scope bindings) step.headers pairs ∧
          Headers.Collects pairs q.headers := by
  refine ⟨Headers.collects_setAll, ?_⟩
  intro env r s q hq
  rcases env.runNested_sendsOnly _ r s q hq with hbefore | hsent
  · exact .inl hbefore
  · obtain ⟨owner, step, bindings, howner, hkind, hrequest⟩ := hsent
    obtain ⟨pairs, hpairs, hheaders⟩ := Step.request_headers hrequest
    refine .inr ⟨owner, step, bindings, pairs, howner, hkind, hpairs, ?_⟩
    rw [hheaders]
    exact Headers.collects_setAll pairs

/-- The first name is spelled by a variable, and the last is another spelling of it. -/
theorem sample_request_headers :
    let given := [("X-$\x7bvar.a\x7d", "1"), ("Accept", "*"), ("x-tag", "2")]
    let pairs := [("X-Tag", "1"), ("Accept", "*"), ("x-tag", "2")]
    let page := Resource.bare "1" "http_step" "page" (.step ⟨"GET", "http://a", "", given, [], []⟩)
    let env : Environment :=
      { registry := ⟨[page]⟩, transport := fun _ _ => .ok ⟨200, [], []⟩, clock := fun n => ⟨n, 0⟩ }
    let state : State :=
      { bindings := ⟨[("a", "Tag")]⟩, response := none, sent := [], captured := 0 }
    let request : Request := ⟨"GET", "http://a", [("X-Tag", "2"), ("Accept", "*")], ""⟩
    request ∈ (env.exec page state).2.sent ∧ Headers.Collects pairs request.headers ∧
      ∃ owner step bindings pairs, (owner = page ∨ owner ∈ env.registry.resources) ∧
        owner.kind = .step step ∧
        Step.HeadersStandFor (env.registry.scope bindings) step.headers pairs ∧
        Headers.Collects pairs request.headers := by
  intro given pairs page env state request
  have hsent : request ∈ (env.exec page state).2.sent := by decide +kernel
  have hset : request.headers = Headers.setAll [] pairs := by decide +kernel
  obtain ⟨hpairs, hruns⟩ := request_headers_keep_first_spelling
  refine ⟨hsent, hset ▸ hpairs pairs, ?_⟩
  exact (hruns env page state request hsent).resolve_left List.not_mem_nil

end HttpSuite
