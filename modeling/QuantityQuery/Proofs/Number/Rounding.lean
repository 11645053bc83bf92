import QuantityQuery.Number.Decimal
import Mathlib.Tactic.Ring

/-!
# Rounding to the nearest number

Facts on `Format.nearest`. A quotient is rounded by its value alone, whatever
numerator and denominator it is given by (`nearest_congr`); a magnitude of the
format stays as it is (`nearest_of_holds`); and no quotient sinks below the power
of two under it (`two_pow_log2_le_nearest`). So the size of an exponent decides
alone where `Decimal.toBinary` lets it: `Decimal.toBinary_eq_ofRatio` says that
a decimal is always rounded as the quotient it writes.
-/

namespace QuantityQuery

theorem roundHalfEven_mul_right (num den : Nat) {k : Nat} (hk : 0 < k) :
    roundHalfEven (num * k) (den * k) = roundHalfEven num den := by
  have hr : 2 * (num % den * k) = 2 * (num % den) * k := (Nat.mul_assoc _ _ _).symm
  simp only [roundHalfEven, Nat.mul_div_mul_right _ _ hk, Nat.mul_mod_mul_right, hr,
    Nat.mul_lt_mul_right hk]

theorem div_le_roundHalfEven (num den : Nat) : num / den ≤ roundHalfEven num den := by
  simp only [roundHalfEven]
  split
  · exact Nat.le_refl _
  · split <;> omega

/-- An exact quotient is not rounded. -/
theorem roundHalfEven_mul_self (q : Nat) {den : Nat} (hden : 0 < den) :
    roundHalfEven (q * den) den = q := by
  simp [roundHalfEven, Nat.mul_div_cancel _ hden, hden]

theorem roundHalfEven_eq_zero {num den : Nat} (h : 2 * num < den) : roundHalfEven num den = 0 := by
  have hlt : num < den := by omega
  simp [roundHalfEven, Nat.div_eq_of_lt hlt, Nat.mod_eq_of_lt hlt, h]

/-- A number of at most `k` binary digits, moved up by `s` of them. -/
theorem log2_mul_two_pow_lt {n k : Nat} (s : Nat) (h0 : n ≠ 0) (h : n < 2 ^ k) :
    (n * 2 ^ s).log2 < k + s := by
  rw [Nat.log2_lt (Nat.mul_ne_zero h0 (Nat.two_pow_pos s).ne'), Nat.pow_add]
  exact Nat.mul_lt_mul_of_pos_right h (Nat.two_pow_pos s)

namespace Format

variable (F : Format)

theorem step_pos (n : Nat) : 0 < F.step n := Nat.two_pow_pos _

theorem nearest_mul_right (num : Nat) {den k : Nat} (hk : 0 < k) :
    F.nearest (num * k) (den * k) = F.nearest num den := by
  simp only [nearest, Nat.mul_div_mul_right _ _ hk]
  rw [Nat.mul_right_comm den k, roundHalfEven_mul_right _ _ hk]

/-- Equal quotients are rounded to one number. -/
theorem nearest_congr {a b c d : Nat} (hb : 0 < b) (hd : 0 < d) (h : a * d = c * b) :
    F.nearest a b = F.nearest c d := by
  rw [← F.nearest_mul_right a hd, ← F.nearest_mul_right c hb, h, Nat.mul_comm b d]

/-- A whole number of steps is not rounded. -/
theorem nearest_of_step_dvd {n den : Nat} (h : F.step n ∣ n) (hden : 0 < den) :
    F.nearest (n * den) den = n := by
  obtain ⟨m, hm⟩ := h
  simp only [nearest, Nat.mul_div_cancel _ hden]
  have hq : n * den = m * (den * F.step n) := by
    calc n * den = F.step n * m * den := by rw [← hm]
      _ = m * (den * F.step n) := by ring
  rw [hq, roundHalfEven_mul_self _ (Nat.mul_pos hden (F.step_pos n)), Nat.mul_comm, ← hm]

/-- A magnitude of the format is its own nearest number. -/
theorem nearest_of_holds {n den : Nat} (h : F.Holds n) (hden : 0 < den) :
    F.nearest (n * den) den = n :=
  F.nearest_of_step_dvd h.1 hden

theorem nearest_zero (den : Nat) (hden : 0 < den) : F.nearest 0 den = 0 := by
  simpa using F.nearest_of_holds F.holds_zero hden

/-- What is less than half a quantum is rounded to zero. -/
theorem nearest_eq_zero {num den : Nat} (h : 2 * num < den) : F.nearest num den = 0 := by
  have hden : den ≤ den * F.step (num / den) := Nat.le_mul_of_pos_right _ (F.step_pos _)
  rw [nearest, roundHalfEven_eq_zero (Nat.lt_of_lt_of_le h hden), Nat.zero_mul]

variable {F}

/-- The step at a magnitude divides the power of two under it. -/
theorem step_dvd_two_pow_log2 (hF : 0 < F.precision) (n : Nat) : F.step n ∣ 2 ^ n.log2 :=
  Nat.pow_dvd_pow 2 (by omega)

/-- A quotient is not rounded below the power of two under it. -/
theorem two_pow_log2_le_nearest (hF : 0 < F.precision) {num den : Nat} (h : num / den ≠ 0) :
    2 ^ (num / den).log2 ≤ F.nearest num den := by
  -- The power of two is a whole number of steps, and so many remain under a rounding down.
  let q := num / den
  let s := F.step q
  have hs : 2 ^ q.log2 / s * s = 2 ^ q.log2 := Nat.div_mul_cancel (step_dvd_two_pow_log2 hF q)
  calc 2 ^ q.log2 = 2 ^ q.log2 / s * s := hs.symm
    _ ≤ q / s * s := Nat.mul_le_mul_right _ (Nat.div_le_div_right (Nat.log2_self_le h))
    _ = num / (den * s) * s := by rw [Nat.div_div_eq_div_mul]
    _ ≤ F.nearest num den := Nat.mul_le_mul_right _ (div_le_roundHalfEven _ _)

/-- What is not less than `2 ^ limit` quanta is beyond the format. -/
theorem not_holds_nearest (hF : 0 < F.precision) {num den : Nat} (h : 2 ^ F.limit ≤ num / den) :
    ¬F.Holds (F.nearest num den) := by
  rintro ⟨_, hlt⟩
  have h0 : num / den ≠ 0 := by have := Nat.two_pow_pos F.limit; omega
  have hlog : F.limit ≤ (num / den).log2 := (Nat.le_log2 h0).2 h
  have hpow : 2 ^ F.limit ≤ 2 ^ (num / den).log2 := Nat.pow_le_pow_right (by decide) hlog
  have := two_pow_log2_le_nearest hF h0
  omega

end Format

namespace Binary

variable {F : Format}

theorem ofQuanta_of_nearest {negative : Bool} {num den n : Nat} (h : F.Holds n)
    (hn : F.nearest num den = n) : ofQuanta negative num den = finite negative n h := by
  subst hn
  rw [ofQuanta, dif_pos h]

theorem ofQuanta_congr (negative : Bool) {a b c d : Nat} (hb : 0 < b) (hd : 0 < d)
    (h : a * d = c * b) : (ofQuanta negative a b : Binary F) = ofQuanta negative c d := by
  rw [ofQuanta, ofQuanta, F.nearest_congr hb hd h]

/-- Equal quotients are one number. -/
theorem ofRatio_congr (negative : Bool) {a b c d : Nat} (hb : 0 < b) (hd : 0 < d)
    (h : a * d = c * b) : (ofRatio negative a b : Binary F) = ofRatio negative c d := by
  refine ofQuanta_congr negative hb hd ?_
  rw [Nat.mul_right_comm, h, Nat.mul_right_comm]

theorem ofRatio_zero (negative : Bool) {den : Nat} (hden : 0 < den) :
    (ofRatio negative 0 den : Binary F) = zero negative :=
  ofQuanta_of_nearest F.holds_zero (by rw [Nat.zero_mul, F.nearest_zero _ hden])

end Binary

namespace Decimal

/-- The numerator of the quotient that a decimal writes. -/
def num (d : Decimal) : Nat := d.digits * 10 ^ d.exponent.toNat

/-- The denominator of the quotient that a decimal writes. -/
def den (d : Decimal) : Nat := 10 ^ (-d.exponent).toNat

theorem den_pos (d : Decimal) : 0 < d.den := Nat.pow_pos (by decide)

/-- A decimal is rounded as the quotient it writes, whatever its exponent. -/
theorem toBinary_eq_ofRatio {F : Format} (hF : 0 < F.precision) (d : Decimal) :
    d.toBinary F = .ofRatio d.negative d.num d.den := by
  have hpow : ∀ k : Nat, 2 ^ k ≤ 10 ^ k := fun k => Nat.pow_le_pow_left (by decide) k
  rw [toBinary]
  split
  case isTrue h =>
    rw [num, h, Nat.zero_mul, Binary.ofRatio_zero _ d.den_pos]
  case isFalse h =>
    split
    case isTrue he =>
      have hden : d.den = 1 := by rw [den, Int.toNat_eq_zero.2 (by omega), Nat.pow_zero]
      split
      case isFalse => rw [hden, num]
      case isTrue hlimit =>
        -- The power of ten alone is beyond the format.
        have hexp : F.limit ≤ d.exponent.toNat := by omega
        have hlarge : 2 ^ F.limit ≤ d.num * 2 ^ F.scale / d.den := by
          rw [hden, Nat.div_one]
          calc 2 ^ F.limit ≤ 2 ^ d.exponent.toNat := Nat.pow_le_pow_right (by decide) hexp
            _ ≤ 10 ^ d.exponent.toNat := hpow _
            _ ≤ d.num := Nat.le_mul_of_pos_left _ (Nat.pos_of_ne_zero h)
            _ ≤ d.num * 2 ^ F.scale := Nat.le_mul_of_pos_right _ (Nat.two_pow_pos _)
        rw [Binary.ofRatio, Binary.ofQuanta, dif_neg (Format.not_holds_nearest hF hlarge)]
    case isFalse he =>
      have hnum : d.num = d.digits := by
        rw [num, Int.toNat_eq_zero.2 (by omega), Nat.pow_zero, Nat.mul_one]
      split
      case isFalse => rw [hnum, den]
      case isTrue hsmall =>
        -- The digits are too few to reach half a quantum.
        have hexp : d.digits.log2 + 1 + F.scale + 1 ≤ (-d.exponent).toNat := by omega
        have hhalf : 2 * (d.num * 2 ^ F.scale) < d.den := by
          calc 2 * (d.num * 2 ^ F.scale) < 2 * (2 ^ (d.digits.log2 + 1) * 2 ^ F.scale) := by
                have := Nat.mul_lt_mul_of_pos_right (Nat.lt_log2_self (n := d.digits))
                  (Nat.two_pow_pos F.scale)
                rw [hnum]
                omega
            _ = 2 ^ (d.digits.log2 + 1 + F.scale + 1) := by ring
            _ ≤ 2 ^ (-d.exponent).toNat := Nat.pow_le_pow_right (by decide) hexp
            _ ≤ d.den := hpow _
        exact (Binary.ofQuanta_of_nearest F.holds_zero (F.nearest_eq_zero hhalf)).symm

end Decimal

end QuantityQuery
