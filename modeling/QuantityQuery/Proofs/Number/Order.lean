import Mathlib.Algebra.Order.Field.Rat
import QuantityQuery.Proofs.Number.Whole

/-!
# The order of numbers

Numbers are compared by their places on the line, in quanta. A whole number has a
place in every format, that of the number nearest to it (`Format.place`), and of two
whole numbers the greater one does not stand before the other (`Format.place_mono`):
rounding may bring them together, but never swaps them.

* `Format.nearest_mono`: rounding keeps the order of quotients;
* `Binary.order_ofInt`: a whole number stands at its place, beyond the format at the
  place of the infinity;
* `Binary.toRat?`: the value of a finite number. Where whole numbers are exact,
  comparing numbers with them is comparing values (`Binary.eq_ofInt_iff`,
  `Binary.between_ofInt_iff`).
-/

namespace QuantityQuery

attribute [local instance (2000)] instPowNat

/-! ### Rounding keeps the order -/

theorem roundHalfEven_mono {m n den : Nat} (h : m ≤ n) :
    roundHalfEven m den ≤ roundHalfEven n den := by
  rcases Nat.lt_or_eq_of_le (Nat.div_le_div_right (c := den) h) with hlt | heq
  · -- A quotient is rounded to at most the next whole number.
    exact (roundHalfEven_le m den).trans (hlt.trans_le (div_le_roundHalfEven n den))
  · -- With the same whole part, the remainders decide.
    have hm := Nat.div_add_mod m den
    have hn := Nat.div_add_mod n den
    rw [heq] at hm
    simp only [roundHalfEven, heq]
    split_ifs <;> omega

namespace Format

variable {F : Format}

theorem nearest_mono (hF : 0 < F.precision) {m n : Nat} (den : Nat) (h : m ≤ n) :
    F.nearest m den ≤ F.nearest n den := by
  have hdiv : m / den ≤ n / den := Nat.div_le_div_right h
  by_cases hlog : (m / den).log2 = (n / den).log2
  · -- Both are rounded to the same step.
    have hstep : F.step (m / den) = F.step (n / den) := by rw [step, step, hlog]
    rw [nearest, nearest, hstep]
    exact Nat.mul_le_mul_right _ (roundHalfEven_mono h)
  · -- A power of two stands between them, and neither is rounded past it.
    have hn : n / den ≠ 0 := by
      intro h0
      rw [h0] at hdiv hlog
      exact hlog (congrArg Nat.log2 (Nat.le_zero.1 hdiv))
    have hlt : (m / den).log2 + 1 ≤ (n / den).log2 := by
      rcases Nat.eq_zero_or_pos (m / den) with h0 | hpos
      · rw [h0, Nat.log2_zero] at hlog ⊢
        omega
      · have hle : (m / den).log2 ≤ (n / den).log2 :=
          (Nat.le_log2 hn).2 ((Nat.log2_self_le hpos.ne').trans hdiv)
        omega
    calc F.nearest m den ≤ 2 ^ ((m / den).log2 + 1) := nearest_le_two_pow hF m den
      _ ≤ 2 ^ (n / den).log2 := Nat.pow_le_pow_right (by decide) hlt
      _ ≤ F.nearest n den := two_pow_log2_le_nearest hF hn

variable (F)

/-- The place of a whole number on the line; beyond the format it is the place of the infinity. -/
def place (n : Nat) : Nat := min (F.nearest (n * 2 ^ F.scale) 1) (2 ^ F.limit)

variable {F}

theorem place_mono (hF : 0 < F.precision) {m n : Nat} (h : m ≤ n) : F.place m ≤ F.place n :=
  min_le_min_right _ (nearest_mono hF 1 (Nat.mul_le_mul_right _ h))

theorem place_of_holds {n : Nat} (h : F.Holds (n * 2 ^ F.scale)) :
    F.place n = n * 2 ^ F.scale := by
  have hnearest := F.nearest_of_holds h Nat.one_pos
  rw [Nat.mul_one] at hnearest
  rw [place, hnearest, min_eq_left h.2.le]

end Format

/-! ### Comparisons -/

namespace Binary

variable {F : Format} {x y : Binary F}

theorem eq_iff : x.eq y ↔ ∃ i, x.order = some i ∧ y.order = some i := by
  rw [eq, compareBy]
  split
  · next hx hy => simp [hx, hy, eq_comm]
  · next hnone =>
    simp only [Bool.false_eq_true, false_iff, not_exists, not_and]
    exact fun i hx hy => hnone i i hx hy

theorem le_iff : x.le y ↔ ∃ i, x.order = some i ∧ ∃ j, y.order = some j ∧ i ≤ j := by
  rw [le, compareBy]
  split
  · next hx hy => simp [hx, hy]
  · next hnone =>
    simp only [Bool.false_eq_true, false_iff, not_exists, not_and]
    exact fun i hx j hy => absurd hy (hnone i j hx)

theorem lt_iff : x.lt y ↔ ∃ i, x.order = some i ∧ ∃ j, y.order = some j ∧ i < j := by
  rw [lt, compareBy]
  split
  · next hx hy => simp [hx, hy]
  · next hnone =>
    simp only [Bool.false_eq_true, false_iff, not_exists, not_and]
    exact fun i hx j hy => absurd hy (hnone i j hx)

theorem lt_asymm (h : x.lt y) : y.lt x = false := by
  rw [← Bool.not_eq_true, lt_iff]
  rintro ⟨j, hj, i, hi, hlt⟩
  obtain ⟨i', hi', j', hj', hlt'⟩ := lt_iff.1 h
  rw [hi, Option.some.injEq] at hi'
  rw [hj, Option.some.injEq] at hj'
  omega

/-- A whole number stands at its place. -/
theorem order_ofInt (hF : 0 < F.precision) (n : Nat) :
    (ofInt n : Binary F).order = some (F.place n : Int) := by
  rw [ofInt_natCast, ofRatio, ofQuanta, Format.place]
  split
  case isTrue h => rw [order, min_eq_left h.2.le]; rfl
  case isFalse h =>
    -- What is rounded is a multiple of its step, so it is too large.
    have hlimit : 2 ^ F.limit ≤ F.nearest (n * 2 ^ F.scale) 1 := by
      by_contra hlt
      exact h ⟨Format.step_dvd_nearest hF _ _, Nat.lt_of_not_le hlt⟩
    rw [order, min_eq_right hlimit]
    simp [signed]

theorem ofInt_eq_self (hF : 0 < F.precision) (n : Nat) :
    (ofInt n : Binary F).eq (ofInt n) :=
  eq_iff.2 ⟨_, order_ofInt hF n, order_ofInt hF n⟩

/-- A whole number, cut at `high` and rounded again, stands at its place, at most at that of
    `high`. -/
theorem order_ofInt_clamp (hF : 0 < F.precision) {n high : Nat} {low : Int} (hlow : low ≤ 0)
    (h : F.Holds n) (hwhole : 2 ^ F.scale ∣ n) :
    (ofInt ((finite false n h : Binary F).clamp low high) : Binary F).order =
      some ((min n (F.place high) : Nat) : Int) := by
  obtain ⟨m, hm⟩ := hwhole
  obtain rfl : n = m * 2 ^ F.scale := hm.trans (Nat.mul_comm ..)
  have hclamp : (finite false (m * 2 ^ F.scale) h : Binary F).clamp low high =
      (min m high : Nat) := by
    rw [clamp, Nat.mul_div_cancel _ (Nat.two_pow_pos _), signed, if_neg Bool.false_ne_true]
    omega
  have hmin : F.place (min m high) = min (F.place m) (F.place high) :=
    Monotone.map_min fun _ _ => Format.place_mono hF
  rw [hclamp, order_ofInt hF, hmin, Format.place_of_holds h]

/-! ### Values -/

/-- The value of a finite number. -/
def toRat? : Binary F → Option ℚ
  | finite negative n _ => some (signed negative n / 2 ^ F.scale)
  | _ => none

theorem order_ofInt_of_holds (hF : 0 < F.precision) {n : Nat} (h : F.Holds (n * 2 ^ F.scale)) :
    (ofInt n : Binary F).order = some ((n * 2 ^ F.scale : Nat) : Int) := by
  rw [order_ofInt hF, Format.place_of_holds h]

/-- A number equals an exact whole number if that is its value. -/
theorem eq_ofInt_iff (hF : 0 < F.precision) {n : Nat} (h : F.Holds (n * 2 ^ F.scale)) :
    x.eq (ofInt n) ↔ x.toRat? = some (n : ℚ) := by
  have hlimit := h.2
  rw [eq_iff, order_ofInt_of_holds hF h]
  cases x with
  | nan => simp [order, toRat?]
  | infinite negative =>
    -- The infinities stand beyond all finite numbers.
    simp only [order, toRat?, signed, Option.some.injEq, reduceCtorEq, iff_false, not_exists]
    split <;> omega
  | finite negative k hk =>
    have hscale : (2 ^ F.scale : ℚ) ≠ 0 := (pow_pos two_pos _).ne'
    simp only [order, toRat?, Option.some.injEq, exists_eq_left', div_eq_iff hscale]
    norm_cast
    exact eq_comm

/-- A number stands between exact whole numbers if its value does. -/
theorem between_ofInt_iff (hF : 0 < F.precision) {m n : Nat} (hm : F.Holds (m * 2 ^ F.scale))
    (hn : F.Holds (n * 2 ^ F.scale)) :
    (ofInt m).le x ∧ x.le (ofInt n) ↔ ∃ q ∈ x.toRat?, (m : ℚ) ≤ q ∧ q ≤ n := by
  have hlimit := hn.2
  rw [le_iff, le_iff, order_ofInt_of_holds hF hm, order_ofInt_of_holds hF hn]
  cases x with
  | nan => simp [order, toRat?]
  | infinite negative =>
    simp only [order, toRat?, signed, Option.some.injEq, reduceCtorEq, Option.mem_def, false_and,
      exists_false, iff_false]
    rintro ⟨⟨_, rfl, _, rfl, hlow⟩, _, rfl, _, rfl, hhigh⟩
    have hpos := Nat.two_pow_pos F.limit
    cases negative with
    | false =>
      rw [if_neg Bool.false_ne_true] at hhigh
      omega
    | true =>
      rw [if_pos rfl] at hlow
      omega
  | finite negative k hk =>
    have hscale : (0 : ℚ) < 2 ^ F.scale := pow_pos two_pos _
    simp only [order, toRat?, Option.some.injEq, Option.mem_def, exists_eq_left',
      le_div_iff₀ hscale, div_le_iff₀ hscale]
    norm_cast

end Binary

end QuantityQuery
