import HttpSuite.Number.Digits

/-!
Whole numbers as doubles. A double holds a whole number of at most 53 significant bits as it is,
and any other one becomes the nearest of these, of two the one with an even significand. So rounding
takes no number past a small one, and the digits without places are those of the nearest.
-/

namespace HttpSuite

/-! ### Rounding -/

section Rounding

variable {num den k : Nat}

theorem roundHalfEven_cases (num den : Nat) :
    (roundHalfEven num den = num / den ∧ 2 * (num % den) ≤ den ∧
        (2 * (num % den) = den → num / den % 2 = 0)) ∨
      (roundHalfEven num den = num / den + 1 ∧ den ≤ 2 * (num % den) ∧
        (2 * (num % den) = den → num / den % 2 = 1)) := by
  rw [roundHalfEven]
  simp only [Bool.or_eq_true, decide_eq_true_eq, Bool.and_eq_true, beq_iff_eq]
  split
  · next h => exact .inr ⟨rfl, by omega, by omega⟩
  · next h => exact .inl ⟨rfl, by omega, by omega⟩

theorem roundHalfEven_zero (den : Nat) : roundHalfEven 0 den = 0 := by
  simp [roundHalfEven]

theorem roundHalfEven_mul (hden : 0 < den) : roundHalfEven (k * den) den = k := by
  have hdiv : k * den / den = k := Nat.mul_div_cancel k hden
  have hmod : k * den % den = 0 := Nat.mul_mod_left k den
  rcases roundHalfEven_cases (k * den) den with ⟨hround, _⟩ | ⟨_, hhalf, _⟩
  · exact hround.trans hdiv
  · omega

theorem le_roundHalfEven (hden : 0 < den) (h : k * den ≤ num) : k ≤ roundHalfEven num den := by
  have hdiv : k ≤ num / den := (Nat.le_div_iff_mul_le hden).mpr h
  rcases roundHalfEven_cases num den with ⟨hround, _⟩ | ⟨hround, _⟩ <;> omega

theorem roundHalfEven_le (hden : 0 < den) (h : num ≤ k * den) : roundHalfEven num den ≤ k := by
  have hdiv : num / den ≤ k := Nat.div_le_of_le_mul (Nat.mul_comm k den ▸ h)
  rcases roundHalfEven_cases num den with ⟨hround, _⟩ | ⟨hround, hhalf, _⟩
  · omega
  · -- A quotient that is rounded up is not exact.
    have hne : num / den ≠ k := by
      intro heq
      have hsum := Nat.div_add_mod num den
      rw [heq, Nat.mul_comm] at hsum
      omega
    omega

/-- A number lies between a multiple of the denominator and the next. -/
theorem mul_le_or_le_mul (num den k : Nat) :
    k * den ≤ num / den * den ∨ num / den * den + den ≤ k * den := by
  rcases Nat.lt_or_ge (num / den) k with hlt | hle
  · exact .inr (Nat.succ_mul _ den ▸ Nat.mul_le_mul_right den hlt)
  · exact .inl (Nat.mul_le_mul_right den hle)

/-- No multiple of the denominator is nearer than the one that rounding gives. -/
theorem roundHalfEven_nearest (num : Nat) (hden : 0 < den) (k : Nat) :
    ((num : Int) - (roundHalfEven num den * den : Nat)).natAbs ≤
      ((num : Int) - (k * den : Nat)).natAbs := by
  have hsum := Nat.div_add_mod num den
  have hmod := Nat.mod_lt num hden
  rw [Nat.mul_comm] at hsum
  have hside := mul_le_or_le_mul num den k
  rcases roundHalfEven_cases num den with ⟨hround, hhalf, _⟩ | ⟨hround, hhalf, _⟩
  · rw [hround]
    omega
  · rw [hround, Nat.succ_mul]
    omega

/-- Of two multiples of the denominator that are equally near, rounding gives the even one. -/
theorem roundHalfEven_even (hden : 0 < den) (hk : k * den ≠ roundHalfEven num den * den)
    (h : ((num : Int) - (roundHalfEven num den * den : Nat)).natAbs =
      ((num : Int) - (k * den : Nat)).natAbs) :
    roundHalfEven num den % 2 = 0 ∧
      ((roundHalfEven num den * den : Nat) - (k * den : Nat) : Int).natAbs = den := by
  have hsum := Nat.div_add_mod num den
  have hmod := Nat.mod_lt num hden
  rw [Nat.mul_comm] at hsum
  have hside := mul_le_or_le_mul num den k
  rcases roundHalfEven_cases num den with ⟨hround, hhalf, heven⟩ | ⟨hround, hhalf, hodd⟩
  · rw [hround] at h hk ⊢
    omega
  · have hside' := mul_le_or_le_mul (num + den) den k
    rw [Nat.add_div_right num hden, Nat.succ_mul] at hside'
    rw [hround, Nat.succ_mul] at h hk ⊢
    omega

end Rounding

namespace Binary64

/-- Whole numbers of at most 53 significant bits. -/
def Representable (n : Int) : Prop :=
  ∃ k j : Nat, k < Nat.pow 2 53 ∧ n.natAbs = k * Nat.pow 2 j

/-- No whole number that a double holds is nearer. Of two that are equally near it is the one with
an even significand, a multiple of twice their distance. -/
structure IsNearest (n r : Int) : Prop where
  representable : Representable r
  nearest : ∀ q, Representable q → (n - r).natAbs ≤ (n - q).natAbs
  even : ∀ q, Representable q → q ≠ r → (n - r).natAbs = (n - q).natAbs → 2 * (r - q) ∣ r

variable {n r q : Int}

theorem representable_of_lt (h : n.natAbs < Nat.pow 2 53) : Representable n :=
  ⟨n.natAbs, 0, h, (Nat.mul_one _).symm⟩

theorem Representable.neg (h : Representable n) : Representable (-n) := by
  rw [Representable, Int.natAbs_neg]
  exact h

namespace IsNearest

theorem le (h : IsNearest n r) (hq : Representable q) (hle : q ≤ n) : q ≤ r := by
  have hnearest := h.nearest q hq
  omega

theorem ge (h : IsNearest n r) (hq : Representable q) (hle : n ≤ q) : r ≤ q := by
  have hnearest := h.nearest q hq
  omega

theorem eq_iff (h : IsNearest n r) : r = n ↔ Representable n := by
  constructor
  · intro heq
    exact heq ▸ h.representable
  · intro hn
    have hnearest := h.nearest n hn
    omega

theorem neg (h : IsNearest n r) : IsNearest (-n) (-r) where
  representable := h.representable.neg
  nearest q hq := by
    have hnearest := h.nearest (-q) hq.neg
    omega
  even q hq hne htie := by
    have heven := h.even (-q) hq.neg (by omega) (by omega)
    rw [Int.dvd_neg, ← Int.neg_dvd]
    rw [show -(2 * (-r - q)) = 2 * (r - -q) by omega]
    exact heven

/-- Only one number is nearest. -/
theorem unique {r' : Int} (h : IsNearest n r) (h' : IsNearest n r') : r' = r := by
  apply Decidable.by_contra
  intro hne
  have hle := h.nearest r' h'.representable
  have hge := h'.nearest r h.representable
  obtain ⟨a, ha⟩ := h.even r' h'.representable hne (by omega)
  obtain ⟨b, hb⟩ := h'.even r h.representable (Ne.symm hne) (by omega)
  have hdistance : (r - r') * (2 * (a + b)) = (r - r') * 1 := by
    grind
  have hone := Int.eq_of_mul_eq_mul_left (by omega) hdistance
  omega

/-- The number after a small one is held, so that nothing above is rounded down to it. -/
theorem lt_iff (h : IsNearest n r) (hq : q.natAbs + 1 < Nat.pow 2 53) : q < r ↔ q < n := by
  have hsmall : Representable q := representable_of_lt (by omega)
  have hnext : Representable (q + 1) := representable_of_lt (by omega)
  constructor
  · intro hlt
    apply Int.lt_of_not_ge
    intro hle
    exact absurd (h.ge hsmall hle) (Int.not_le.mpr hlt)
  · intro hlt
    exact h.le hnext hlt

/-- The number before a small one is held, so that nothing below is rounded up to it. -/
theorem gt_iff (h : IsNearest n r) (hq : q.natAbs + 1 < Nat.pow 2 53) : r < q ↔ n < q := by
  have hopposite := h.neg.lt_iff (q := -q) (by omega)
  omega

end IsNearest

/-! ### Rounding to 53 bits -/

/-- The step between the doubles around a natural number, at least one. -/
def spacing (n : Nat) : Nat :=
  Nat.pow 2 (n.log2 - 52)

theorem spacing_pos (n : Nat) : 0 < spacing n :=
  Nat.two_pow_pos _

theorem spacing_eq_one {n : Nat} (h : n.log2 ≤ 52) : spacing n = 1 := by
  rw [spacing, Nat.sub_eq_zero_of_le h]

theorem pow_mul_spacing (k n : Nat) :
    Nat.pow 2 k * spacing n = Nat.pow 2 (k + (n.log2 - 52)) :=
  (Nat.pow_add 2 k _).symm

theorem spacing_le {n : Nat} (hn : 52 < n.log2) : Nat.pow 2 52 * spacing n ≤ n := by
  have hexp : 52 + (n.log2 - 52) = n.log2 := by omega
  rw [pow_mul_spacing, hexp]
  exact Nat.log2_self_le (by rintro rfl; simp at hn)

theorem le_spacing (n : Nat) : n ≤ Nat.pow 2 53 * spacing n := by
  rw [pow_mul_spacing]
  calc n ≤ Nat.pow 2 (n.log2 + 1) := Nat.le_of_lt Nat.lt_log2_self
    _ ≤ Nat.pow 2 (53 + (n.log2 - 52)) := Nat.pow_le_pow_right (by decide) (by omega)

/-- A natural number with its last bits rounded off, half to even. -/
def rounded (n : Nat) : Nat :=
  roundHalfEven n (spacing n) * spacing n

theorem rounded_of_log2_le {n : Nat} (h : n.log2 ≤ 52) : rounded n = n := by
  have hspacing := spacing_eq_one h
  have hround : roundHalfEven (n * 1) 1 = n := roundHalfEven_mul Nat.one_pos
  rw [Nat.mul_one] at hround
  rw [rounded, hspacing, hround, Nat.mul_one]

theorem representable_rounded (n : Nat) : Representable (rounded n) := by
  have hle : roundHalfEven n (spacing n) ≤ Nat.pow 2 53 :=
    roundHalfEven_le (spacing_pos n) (le_spacing n)
  rcases Nat.lt_or_eq_of_le hle with hlt | hcarry
  · exact ⟨_, _, hlt, rfl⟩
  · -- One bit is enough for a power of two.
    refine ⟨1, 53 + (n.log2 - 52), by decide, ?_⟩
    rw [rounded, hcarry, pow_mul_spacing, Nat.one_mul]
    rfl

/-- What a double holds is a multiple of the step around a number, or below every number of as many
bits. -/
theorem Representable.multiple_or_below (h : Representable q) (n : Nat) :
    (∃ k, q.natAbs = k * spacing n) ∨ 52 < n.log2 ∧ q.natAbs < Nat.pow 2 52 * spacing n := by
  obtain ⟨k, j, hk, habs⟩ := h
  rw [habs]
  rcases Nat.lt_or_ge j (n.log2 - 52) with hlow | hhigh
  · refine .inr ⟨by omega, ?_⟩
    calc k * Nat.pow 2 j < Nat.pow 2 53 * Nat.pow 2 j :=
          Nat.mul_lt_mul_of_pos_right hk (Nat.two_pow_pos j)
      _ = Nat.pow 2 (53 + j) := (Nat.pow_add 2 53 j).symm
      _ ≤ Nat.pow 2 (52 + (n.log2 - 52)) := Nat.pow_le_pow_right (by decide) (by omega)
      _ = Nat.pow 2 52 * spacing n := (pow_mul_spacing 52 n).symm
  · refine .inl ⟨k * Nat.pow 2 (j - (n.log2 - 52)), ?_⟩
    rw [Nat.mul_assoc, pow_mul_spacing, Nat.sub_add_cancel hhigh]

theorem isNearest_rounded (n : Nat) : IsNearest n (rounded n) where
  representable := representable_rounded n
  nearest q hq := by
    have hmultiple (k : Nat) := roundHalfEven_nearest n (spacing_pos n) k
    rw [rounded]
    rcases hq.multiple_or_below n with ⟨k, hk⟩ | ⟨hlog, hbelow⟩
    · have hzero := hmultiple 0
      have hstep := hmultiple k
      rw [← hk] at hstep
      omega
    · have hn := spacing_le hlog
      have hstep := hmultiple (Nat.pow 2 52)
      omega
  even q hq hne htie := by
    have hmultiple (k : Nat) := roundHalfEven_nearest n (spacing_pos n) k
    rw [rounded] at hne htie ⊢
    rcases hq.multiple_or_below n with ⟨k, hk⟩ | ⟨hlog, hbelow⟩
    · have hzero := hmultiple 0
      obtain rfl : q = (k * spacing n : Nat) := by omega
      obtain ⟨heven, hstep⟩ :=
        roundHalfEven_even (spacing_pos n) (fun heq => hne (congrArg Nat.cast heq)) htie
      obtain ⟨half, hhalf⟩ := Nat.dvd_of_mod_eq_zero heven
      rw [← Int.natAbs_dvd_natAbs, Int.natAbs_mul, hstep, Int.natAbs_natCast, hhalf]
      exact ⟨half, Nat.mul_right_comm 2 half (spacing n)⟩
    · have hn := spacing_le hlog
      have hstep := hmultiple (Nat.pow 2 52)
      omega

/-! ### Doubles -/

/-- A double is a whole number, and a zero is without a sign. -/
def IsWhole (x : Binary64) (n : Int) : Prop :=
  ∃ m e canonical, x = finite (decide (n < 0)) m e canonical ∧
    m * Nat.pow 2 e.toNat = n.natAbs * Nat.pow 2 (-e).toNat

variable {x : Binary64}

/-- The leading bit of a natural number is the first of the 53. -/
theorem exponentOf_one {n : Nat} (hn : n ≠ 0) : exponentOf n 1 = (n.log2 : Int) - 52 := by
  have hguess : max (-1074) ((n.log2 : Int) - (Nat.log2 1 : Nat) - 53) = n.log2 - 53 := by
    have hone : Nat.log2 1 = 0 := rfl
    omega
  have hscaled : ¬ n * Nat.pow 2 (-((n.log2 : Int) - 53)).toNat /
      (1 * Nat.pow 2 ((n.log2 : Int) - 53).toNat) < Nat.pow 2 53 := by
    generalize hup : (-((n.log2 : Int) - 53)).toNat = up
    generalize hdown : ((n.log2 : Int) - 53).toNat = down
    rw [Nat.one_mul, Nat.not_lt]
    apply (Nat.le_div_iff_mul_le (Nat.two_pow_pos down)).mpr
    calc Nat.pow 2 53 * Nat.pow 2 down = Nat.pow 2 (53 + down) := (Nat.pow_add 2 53 down).symm
      _ = Nat.pow 2 (n.log2 + up) := by congr 1; omega
      _ = Nat.pow 2 n.log2 * Nat.pow 2 up := Nat.pow_add 2 _ up
      _ ≤ n * Nat.pow 2 up := Nat.mul_le_mul_right _ (Nat.log2_self_le hn)
  simp only [exponentOf, hguess, if_neg hn, if_neg hscaled]
  omega

/-- The significand before it is carried is that of the rounded number. -/
theorem significand_eq (n : Nat) :
    roundHalfEven (n * Nat.pow 2 (52 - n.log2)) (spacing n) * spacing n =
      rounded n * Nat.pow 2 (52 - n.log2) := by
  rcases Nat.le_total n.log2 52 with hle | hge
  · have hspacing := spacing_eq_one hle
    have hexact := roundHalfEven_mul (k := n * Nat.pow 2 (52 - n.log2)) (spacing_pos n)
    rw [hspacing, Nat.mul_one] at hexact
    rw [rounded_of_log2_le hle, hspacing, hexact, Nat.mul_one]
  · have hone : Nat.pow 2 (52 - n.log2) = 1 := by
      rw [Nat.sub_eq_zero_of_le hge]
    rw [hone, Nat.mul_one, Nat.mul_one, rounded]

/-- The significand has 53 bits, or is carried to one more. -/
theorem significand_bounds {n : Nat} (hn : n ≠ 0) :
    Nat.pow 2 52 ≤ roundHalfEven (n * Nat.pow 2 (52 - n.log2)) (spacing n) ∧
      roundHalfEven (n * Nat.pow 2 (52 - n.log2)) (spacing n) ≤ Nat.pow 2 53 := by
  have hshift (k : Nat) : Nat.pow 2 (k + 52) * spacing n =
      Nat.pow 2 (k + n.log2) * Nat.pow 2 (52 - n.log2) := by
    calc Nat.pow 2 (k + 52) * spacing n = Nat.pow 2 (k + 52 + (n.log2 - 52)) :=
          pow_mul_spacing _ n
      _ = Nat.pow 2 (k + n.log2 + (52 - n.log2)) := by congr 1; omega
      _ = Nat.pow 2 (k + n.log2) * Nat.pow 2 (52 - n.log2) := Nat.pow_add 2 _ _
  constructor
  · apply le_roundHalfEven (spacing_pos n)
    rw [← Nat.zero_add 52, hshift 0, Nat.zero_add]
    exact Nat.mul_le_mul_right _ (Nat.log2_self_le hn)
  · apply roundHalfEven_le (spacing_pos n)
    rw [show 53 = 1 + 52 from rfl, hshift 1, Nat.add_comm]
    exact Nat.mul_le_mul_right _ (Nat.le_of_lt Nat.lt_log2_self)

section Quotients

variable {negative : Bool} {num den m : Nat} {e : Int}

theorem ofRatio_of_lt (he : exponentOf num den = e)
    (hm : roundHalfEven (num * Nat.pow 2 (-e).toNat) (den * Nat.pow 2 e.toNat) = m)
    (hlt : m < Nat.pow 2 53) (canonical : Canonical m e) :
    ofRatio negative num den = finite negative m e canonical := by
  subst he hm
  simp only [ofRatio, if_neg (Nat.ne_of_lt hlt), dif_pos canonical]

theorem ofRatio_of_carry (he : exponentOf num den = e)
    (hm : roundHalfEven (num * Nat.pow 2 (-e).toNat) (den * Nat.pow 2 e.toNat) = Nat.pow 2 53)
    (canonical : Canonical (Nat.pow 2 52) (e + 1)) :
    ofRatio negative num den = finite negative (Nat.pow 2 52) (e + 1) canonical := by
  subst he
  simp only [ofRatio, if_pos hm, dif_pos canonical]

end Quotients

/-- A significand of 54 bits is one of 53 with the next exponent. -/
theorem carry_eq {k : Nat} {e : Int}
    (h : Nat.pow 2 53 * Nat.pow 2 e.toNat = k * Nat.pow 2 (-e).toNat) :
    Nat.pow 2 52 * Nat.pow 2 (e + 1).toNat = k * Nat.pow 2 (-(e + 1)).toNat := by
  have hcarry (up : Nat) : Nat.pow 2 53 * up = Nat.pow 2 52 * up * 2 :=
    Nat.mul_right_comm (Nat.pow 2 52) 2 up
  rcases Int.lt_or_le e 0 with hneg | hpos
  · have hsucc : (-e).toNat = (-(e + 1)).toNat + 1 := by omega
    have hdouble : Nat.pow 2 (-e).toNat = Nat.pow 2 (-(e + 1)).toNat * 2 :=
      congrArg (Nat.pow 2) hsucc
    have hsame : (e + 1).toNat = e.toNat := by omega
    rw [hcarry, hdouble, ← Nat.mul_assoc] at h
    rw [hsame]
    exact Nat.mul_right_cancel Nat.two_pos h
  · have hsucc : (e + 1).toNat = e.toNat + 1 := by omega
    have hdouble : Nat.pow 2 (e + 1).toNat = Nat.pow 2 e.toNat * 2 := congrArg (Nat.pow 2) hsucc
    have hsame : (-(e + 1)).toNat = (-e).toNat := by omega
    rw [hsame, ← h, hcarry, hdouble, ← Nat.mul_assoc]

/-- A natural number that is not too large becomes the double of what it is rounded to. -/
theorem ofRatio_one (negative : Bool) {n : Nat} (h : n.log2 ≤ 1022) :
    ∃ m e canonical, ofRatio negative n 1 = finite negative m e canonical ∧
      m * Nat.pow 2 e.toNat = rounded n * Nat.pow 2 (-e).toNat := by
  by_cases hn : n = 0
  · subst hn
    have hexponent : exponentOf 0 1 = -1074 := by simp only [exponentOf, if_true]
    have hround : roundHalfEven (0 * Nat.pow 2 (-(-1074) : Int).toNat)
        (1 * Nat.pow 2 (-1074 : Int).toNat) = 0 := by
      rw [Nat.zero_mul, roundHalfEven_zero]
    refine ⟨0, -1074, by decide, ofRatio_of_lt hexponent hround (by decide) _, ?_⟩
    rw [rounded_of_log2_le (by decide), Nat.zero_mul, Nat.zero_mul]
  · obtain ⟨hlow, hhigh⟩ := significand_bounds hn
    have hvalue := significand_eq n
    have hup : (-((n.log2 : Int) - 52)).toNat = 52 - n.log2 := by omega
    have hdown : ((n.log2 : Int) - 52).toNat = n.log2 - 52 := by omega
    obtain ⟨m, hm⟩ : ∃ m, roundHalfEven (n * Nat.pow 2 (52 - n.log2)) (spacing n) = m := ⟨_, rfl⟩
    rw [hm] at hlow hhigh hvalue
    have hround : roundHalfEven (n * Nat.pow 2 (-((n.log2 : Int) - 52)).toNat)
        (1 * Nat.pow 2 ((n.log2 : Int) - 52).toNat) = m := by
      rw [hup, hdown, Nat.one_mul]
      exact hm
    have hvalue : m * Nat.pow 2 ((n.log2 : Int) - 52).toNat =
        rounded n * Nat.pow 2 (-((n.log2 : Int) - 52)).toNat := by
      rw [hup, hdown]
      exact hvalue
    rcases Nat.lt_or_eq_of_le hhigh with hlt | rfl
    · have hcanonical : Canonical m ((n.log2 : Int) - 52) :=
        ⟨hlt, by omega, by omega, .inl hlow⟩
      exact ⟨m, _, hcanonical, ofRatio_of_lt (exponentOf_one hn) hround hlt hcanonical, hvalue⟩
    · have hcanonical : Canonical (Nat.pow 2 52) ((n.log2 : Int) - 52 + 1) :=
        ⟨by decide, by omega, by omega, .inl (Nat.le_refl _)⟩
      exact ⟨_, _, hcanonical, ofRatio_of_carry (exponentOf_one hn) hround hcanonical,
        carry_eq hvalue⟩

/-- A whole number becomes the double of the nearest one that doubles hold. -/
theorem ofInt_isWhole (h : n.natAbs.log2 ≤ 1022) :
    ∃ r, IsNearest n r ∧ (ofInt n).IsWhole r := by
  obtain ⟨m, e, canonical, hdouble, hvalue⟩ := ofRatio_one (decide (n < 0)) h
  have hnearest := isNearest_rounded n.natAbs
  rcases Int.lt_or_le n 0 with hneg | hpos
  · have hone : 1 ≤ (rounded n.natAbs : Int) :=
      hnearest.le (representable_of_lt (by decide)) (by omega)
    have hopposite := hnearest.neg
    rw [show -(n.natAbs : Int) = n by omega] at hopposite
    have hsign : n < 0 ↔ -(rounded n.natAbs : Int) < 0 := by omega
    refine ⟨_, hopposite, m, e, canonical, ?_, ?_⟩
    · rw [ofInt, hdouble, decide_eq_decide.mpr hsign]
    · rw [Int.natAbs_neg]
      exact hvalue
  · rw [show (n.natAbs : Int) = n by omega] at hnearest
    have hsign : n < 0 ↔ (rounded n.natAbs : Int) < 0 := by omega
    refine ⟨_, hnearest, m, e, canonical, ?_, hvalue⟩
    rw [ofInt, hdouble, decide_eq_decide.mpr hsign]

/-- Machine words are far below the largest double. -/
theorem ofInt_isWhole_of_le (h : n.natAbs ≤ Nat.pow 2 64) :
    ∃ r, IsNearest n r ∧ (ofInt n).IsWhole r := by
  apply ofInt_isWhole
  rcases Nat.eq_zero_or_pos n.natAbs with hzero | hpos
  · rw [hzero]
    decide
  · have hlog : n.natAbs.log2 < 65 :=
      (Nat.log2_lt (Nat.ne_of_gt hpos)).mpr (Nat.lt_of_le_of_lt h (by decide))
    omega

/-- A number that doubles hold is a double as it is. -/
theorem ofNat_isWhole {k : Nat} (h : k < Nat.pow 2 53) : (ofNat k).IsWhole k := by
  have hword : (k : Int).natAbs ≤ Nat.pow 2 64 := Nat.le_of_lt (Nat.lt_trans h (by decide))
  obtain ⟨r, hnearest, hwhole⟩ := ofInt_isWhole_of_le hword
  rwa [hnearest.eq_iff.mpr (representable_of_lt h)] at hwhole

/-- A value does not depend on the exponent that it is written with. -/
theorem shifted_eq {m k : Nat} {e : Int} (unit : Nat) (he : -unit ≤ e)
    (h : m * Nat.pow 2 e.toNat = k * Nat.pow 2 (-e).toNat) :
    m * Nat.pow 2 (e + unit).toNat = k * Nat.pow 2 unit := by
  apply Nat.mul_right_cancel (Nat.two_pow_pos (-e).toNat)
  calc m * Nat.pow 2 (e + unit).toNat * Nat.pow 2 (-e).toNat
      = m * Nat.pow 2 ((e + unit).toNat + (-e).toNat) := by
        rw [Nat.mul_assoc]
        exact congrArg (m * ·) (Nat.pow_add 2 _ _).symm
    _ = m * Nat.pow 2 (e.toNat + unit) := by
        congr 2
        omega
    _ = m * Nat.pow 2 e.toNat * Nat.pow 2 unit := by
        rw [Nat.mul_assoc]
        exact congrArg (m * ·) (Nat.pow_add 2 _ _)
    _ = k * Nat.pow 2 unit * Nat.pow 2 (-e).toNat := by
        rw [h, Nat.mul_right_comm]

theorem placed_zero (n : Nat) : placed n 0 = digitText n := by
  have hsome : 0 < (digitText n).length := List.length_pos_iff.mpr Nat.toDigits_ne_nil
  have hnone : 0 + 1 - (digitText n).length = 0 := by omega
  simp only [placed, hnone, List.replicate_zero, List.nil_append, if_true]

theorem ofList_sign_digits (n : Int) :
    String.ofList (signText (decide (n < 0)) ++ digitText n.natAbs) = toString n := by
  cases n with
  | ofNat k => rfl
  | negSucc k =>
      rw [decide_eq_true (Int.negSucc_lt_zero k)]
      show String.ofList (['-'] ++ digitText (k + 1)) = "-" ++ toString (k + 1)
      rw [String.ofList_append]
      rfl

/-- Whole doubles lie on the line as their numbers do, whatever the unit. -/
theorem exists_unit :
    ∃ unit : Nat, 0 < unit ∧ ∀ {x n}, IsWhole x n → x.position? = some (n * unit) := by
  obtain ⟨k, hk⟩ : ∃ k : Nat, k = 1074 := ⟨_, rfl⟩
  refine ⟨Nat.pow 2 k, Nat.two_pow_pos k, ?_⟩
  rintro _ n ⟨m, e, canonical, rfl, hvalue⟩
  obtain ⟨_, hlow, _, _⟩ := canonical
  have hunits : (m : Int) * (Nat.pow 2 (e + 1074).toNat : Nat) = n.natAbs * (Nat.pow 2 k : Nat) := by
    rw [show (1074 : Int) = k by omega, ← Int.natCast_mul, shifted_eq k (by omega) hvalue,
      Int.natCast_mul]
  simp only [position?, hunits, decide_eq_true_eq]
  split
  · next hneg => rw [← Int.neg_mul, show -(n.natAbs : Int) = n by omega]
  · next hpos => rw [show (n.natAbs : Int) = n by omega]

/-- Without places a whole double is written as an integer. -/
theorem IsWhole.fixed_zero (h : x.IsWhole n) : x.fixed 0 = toString n := by
  obtain ⟨m, e, canonical, rfl, hvalue⟩ := h
  have hround : roundHalfEven (m * Nat.pow 10 0 * Nat.pow 2 e.toNat) (Nat.pow 2 (-e).toNat) =
      n.natAbs := by
    rw [show m * Nat.pow 10 0 = m from Nat.mul_one m, hvalue]
    exact roundHalfEven_mul (Nat.two_pow_pos _)
  simp only [fixed, hround, placed_zero]
  exact ofList_sign_digits n

end Binary64
end HttpSuite
