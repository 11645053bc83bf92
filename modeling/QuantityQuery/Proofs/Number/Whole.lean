import QuantityQuery.Proofs.Number.Numeral
import QuantityQuery.Proofs.Number.Rounding

/-!
# Whole numbers as binary numbers

The decimal digits of a whole number are read as the number nearest to it
(`readBinary?_decimalDigits`). That number is finite unless the whole number is far
beyond the format (`Format.holds_nearest_whole`), and exact as long as the whole number
has no more binary digits than the format (`Binary.ofInt_eq_finite`).
-/

namespace QuantityQuery

theorem roundHalfEven_le (num den : Nat) : roundHalfEven num den ≤ num / den + 1 := by
  simp only [roundHalfEven]
  split
  · omega
  · split <;> omega

namespace Format

variable {F : Format}

/-- A quotient is not rounded above the power of two over it. -/
theorem nearest_le_two_pow (hF : 0 < F.precision) (num den : Nat) :
    F.nearest num den ≤ 2 ^ ((num / den).log2 + 1) := by
  let q := num / den
  let s := F.step q
  have hdvd : s ∣ 2 ^ (q.log2 + 1) := Nat.pow_dvd_pow 2 (by omega)
  have hlt : q / s < 2 ^ (q.log2 + 1) / s :=
    Nat.div_lt_div_of_lt_of_dvd hdvd Nat.lt_log2_self
  calc F.nearest num den ≤ (num / (den * s) + 1) * s :=
        Nat.mul_le_mul_right _ (roundHalfEven_le _ _)
    _ = (q / s + 1) * s := by rw [Nat.div_div_eq_div_mul]
    _ ≤ 2 ^ (q.log2 + 1) / s * s := Nat.mul_le_mul_right _ hlt
    _ = 2 ^ (q.log2 + 1) := Nat.div_mul_cancel hdvd

/-- A rounded magnitude is a multiple of its own step, also where it has reached the next power
    of two. -/
theorem step_dvd_nearest (hF : 0 < F.precision) (num den : Nat) :
    F.step (F.nearest num den) ∣ F.nearest num den := by
  let q := num / den
  by_cases hq : q = 0
  · -- Less than one quantum is rounded to none or one, where the step is one quantum.
    have hzero : F.step 0 = 1 := by
      rw [step, Nat.log2_zero, Nat.sub_eq_zero_of_le hF, Nat.pow_zero]
    have hone : F.step 1 = 1 := hzero
    have hle : F.nearest num den ≤ 1 := by
      have := roundHalfEven_le num den
      rw [nearest, show num / den = 0 from hq, hzero, Nat.mul_one, Nat.mul_one]
      omega
    obtain h | h : F.nearest num den = 0 ∨ F.nearest num den = 1 := by omega
    · rw [h]; exact Nat.dvd_zero _
    · rw [h, hone]
  · have hlow : 2 ^ q.log2 ≤ F.nearest num den := two_pow_log2_le_nearest hF hq
    have hpos : F.nearest num den ≠ 0 := by have := Nat.two_pow_pos q.log2; omega
    -- Below the next power of two the step is the one that was rounded to; at this power it
    -- divides it.
    rcases Nat.lt_or_eq_of_le (nearest_le_two_pow hF num den) with hlt | heq
    · have hlog : (F.nearest num den).log2 = q.log2 := (Nat.log2_eq_iff hpos).2 ⟨hlow, hlt⟩
      rw [step, hlog]
      exact Nat.dvd_mul_left _ _
    · rw [heq, step, Nat.log2_two_pow]
      exact Nat.pow_dvd_pow 2 (by omega)

theorem holds_nearest (hF : 0 < F.precision) {num den : Nat}
    (h : (num / den).log2 + 1 < F.limit) : F.Holds (F.nearest num den) :=
  ⟨step_dvd_nearest hF num den, Nat.lt_of_le_of_lt (nearest_le_two_pow hF num den)
    (Nat.pow_lt_pow_right (by decide) h)⟩

/-- A whole number that is not far beyond the format is rounded to a number of the format. -/
theorem holds_nearest_whole (hF : 0 < F.precision) {n : Nat}
    (h : n.log2 + F.scale + 1 < F.limit) : F.Holds (F.nearest (n * 2 ^ F.scale) 1) := by
  refine holds_nearest hF ?_
  rw [Nat.div_one]
  by_cases h0 : n = 0
  · rw [h0, Nat.zero_mul, Nat.log2_zero]; omega
  have hlt := log2_mul_two_pow_lt F.scale h0 Nat.lt_log2_self
  omega

/-- A whole number with few enough binary digits is a number of the format. -/
theorem holds_whole (hF : 0 < F.precision) {n : Nat} (hn : n ≤ 2 ^ F.precision)
    (hlimit : F.precision + F.scale < F.limit) : F.Holds (n * 2 ^ F.scale) := by
  have hlt : n * 2 ^ F.scale < 2 ^ F.limit := by
    calc n * 2 ^ F.scale ≤ 2 ^ F.precision * 2 ^ F.scale := Nat.mul_le_mul_right _ hn
      _ = 2 ^ (F.precision + F.scale) := (Nat.pow_add ..).symm
      _ < 2 ^ F.limit := Nat.pow_lt_pow_right (by decide) hlimit
  refine ⟨?_, hlt⟩
  rcases Nat.lt_or_eq_of_le hn with hn | rfl
  · by_cases h0 : n = 0
    · rw [h0, Nat.zero_mul]; exact Nat.dvd_zero _
    have hlog := log2_mul_two_pow_lt F.scale h0 hn
    exact (Nat.pow_dvd_pow 2 (by omega)).trans (Nat.dvd_mul_left _ _)
  · rw [← Nat.pow_add, step, Nat.log2_two_pow]
    exact Nat.pow_dvd_pow 2 (by omega)

end Format

namespace Binary

variable {F : Format} {n : Nat}

theorem ofInt_natCast (n : Nat) : (ofInt n : Binary F) = ofRatio false n 1 := by
  rw [ofInt, Int.natAbs_natCast, decide_eq_false (by omega)]

theorem isFinite_ofInt (h : F.Holds (F.nearest (n * 2 ^ F.scale) 1)) :
    (ofInt n : Binary F).isFinite := by
  rw [ofInt_natCast, ofRatio, ofQuanta_of_nearest h rfl]
  rfl

theorem ofInt_eq_finite (h : F.Holds (n * 2 ^ F.scale)) :
    (ofInt n : Binary F) = finite false (n * 2 ^ F.scale) h := by
  rw [ofInt_natCast]
  refine ofQuanta_of_nearest h ?_
  simpa using F.nearest_of_holds h Nat.one_pos

/-- An exact whole number is whole, and its whole part is itself. -/
theorem isWhole_ofInt (h : F.Holds (n * 2 ^ F.scale)) : (ofInt n : Binary F).isWhole := by
  rw [ofInt_eq_finite h]
  simp [isWhole]

theorem clamp_ofInt (h : F.Holds (n * 2 ^ F.scale)) {low high : Int} (hlow : low ≤ n)
    (hhigh : (n : Int) ≤ high) : (ofInt n : Binary F).clamp low high = n := by
  rw [ofInt_eq_finite h, clamp, Nat.mul_div_cancel _ (Nat.two_pow_pos _)]
  simp only [signed, Bool.false_eq_true, if_false]
  omega

end Binary

/-- Whole numbers of 64 binary digits are not beyond the numbers with 53 significant ones. -/
theorem Double.holds_nearest {n : Nat} (h : n < 2 ^ 64) :
    Format.Holds ⟨53, 1074, 2098⟩
      (Format.nearest ⟨53, 1074, 2098⟩ (n * 2 ^ Format.scale ⟨53, 1074, 2098⟩) 1) := by
  refine Format.holds_nearest_whole (by decide) ?_
  have hlog : n.log2 < 64 := by
    by_cases h0 : n = 0
    · rw [h0, Nat.log2_zero]
      decide
    · exact (Nat.log2_lt h0).2 h
  change n.log2 + 1074 + 1 < 2098
  omega

/-- Whole numbers up to `2 ^ 53` are exact with 53 significant digits. -/
theorem Double.holds_whole {n : Nat} (h : n ≤ 2 ^ 53) :
    Format.Holds ⟨53, 1074, 2098⟩ (n * 2 ^ Format.scale ⟨53, 1074, 2098⟩) :=
  Format.holds_whole (by decide) h (by decide)

/-- The digits of a whole number are read as the number nearest to it. -/
theorem readBinary?_decimalDigits {F : Format} (hF : 0 < F.precision) (n : Nat) :
    readBinary? F (decimalDigits n) = some (.ofInt n) := by
  have hd := isDigits_decimalDigits n
  have hread := readDecimal?_digits false hd
  obtain ⟨c, rest, hcons⟩ := List.exists_cons_of_ne_nil hd.1
  have hc : c.isDigit := hd.2 c (hcons ▸ List.mem_cons_self)
  rw [digitsValue_decimalDigits, hcons] at hread
  rw [hcons, (readBinary?_of_isDigit hc rest).1, hread, Option.map_some,
    Decimal.toBinary_eq_ofRatio hF, Binary.ofInt_natCast]
  simp [Decimal.num, Decimal.den]

end QuantityQuery
