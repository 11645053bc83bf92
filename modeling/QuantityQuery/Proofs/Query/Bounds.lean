import QuantityQuery.Proofs.Number.Order
import QuantityQuery.Proofs.Search.Meaning

/-!
# Ends of ranges

A number at the end of a range is changed before values are compared with it: if it is
whole, it is cut at the greatest whole number that a bound can be. That number is itself
rounded up to `2 ^ 63`, and no greater number has a fraction, so no end of a range stands
beyond `2 ^ 63` (`Bound.order_ofNumber`), however great it was written.

* `Bounds.admits_whole_iff`: the values between whole numbers;
* `Double.place_le_place_iff`: the whole numbers that are not rounded beyond `2 ^ 63`.
-/

namespace QuantityQuery

attribute [local instance (2000)] instPowNat

/-- The place of a whole number among the numbers with 53 significant bits. -/
abbrev Double.place (n : Nat) : Nat := Format.place ⟨53, 1074, 2098⟩ n

theorem Double.place_mono {m n : Nat} (h : m ≤ n) : place m ≤ place n :=
  Format.place_mono (by decide) h

/-- Up to half of the step after `2 ^ 63`, whole numbers are rounded down to it. -/
theorem Double.place_le_place_iff {n : Nat} : place n ≤ place (2 ^ 63) ↔ n ≤ 2 ^ 63 + 2 ^ 10 := by
  constructor
  · intro h
    by_contra hlt
    have hbeyond : place (2 ^ 63) < place (2 ^ 63 + 2 ^ 10 + 1) := by decide +kernel
    have hmono := place_mono (Nat.lt_of_not_le hlt)
    exact absurd (hbeyond.trans_le hmono) (Nat.not_lt.2 h)
  · intro h
    have hround : place (2 ^ 63 + 2 ^ 10) = place (2 ^ 63) := by decide +kernel
    exact (place_mono h).trans hround.le

/-- A number of the format is a multiple of every power of two that is far enough below it. -/
theorem Format.two_pow_dvd_of_holds {F : Format} {n k : Nat} (h : F.Holds n)
    (hn : 2 ^ (F.precision + k) ≤ n) : 2 ^ k ∣ n := by
  have hpos : n ≠ 0 := ((Nat.two_pow_pos _).trans_le hn).ne'
  have hlog : F.precision + k ≤ n.log2 := (Nat.le_log2 hpos).2 hn
  exact (Nat.pow_dvd_pow 2 (by omega)).trans h.1

/-- The bound of a number stands at the place of the number, at most at that of `2 ^ 63`. -/
theorem Bound.order_ofNumber {n : Nat} (h : Format.Holds ⟨53, 1074, 2098⟩ n) :
    ∃ w ∈ (ofNumber (.finite false n h)).value?,
      w.order = some ((min n (Double.place (2 ^ 63)) : Nat) : Int) := by
  let F : Format := ⟨53, 1074, 2098⟩
  by_cases hwhole : 2 ^ F.scale ∣ n
  · have hlast : Double.place (2 ^ 63 - 1) = Double.place (2 ^ 63) := by decide +kernel
    have hmod : (Binary.finite false n h).isWhole :=
      decide_eq_true (Nat.mod_eq_zero_of_dvd hwhole)
    rw [ofNumber, if_pos hmod, ← hlast]
    exact ⟨_, rfl, Binary.order_ofInt_clamp (by decide) (by decide) h hwhole⟩
  · -- From `2 ^ 53` on all numbers are whole.
    have hlt : n < 2 ^ (F.precision + F.scale) :=
      Nat.lt_of_not_le fun hle => hwhole (Format.two_pow_dvd_of_holds h hle)
    have hlast : 2 ^ (F.precision + F.scale) ≤ Double.place (2 ^ 63) := by decide +kernel
    have hreal : ¬ (Binary.finite false n h).isWhole := fun hmod =>
      hwhole (Nat.dvd_of_mod_eq_zero (of_decide_eq_true hmod))
    refine ⟨.finite false n h, ?_, ?_⟩
    · rw [ofNumber, if_neg hreal]
      rfl
    · rw [min_eq_left (hlt.le.trans hlast)]
      rfl

/-- The bound of a whole number stands at the place of the number, at most at that of `2 ^ 63`. -/
theorem Bound.order_ofNumber_ofInt {n : Nat} (h : n < 2 ^ 64) :
    ∃ w ∈ (ofNumber (.ofInt n)).value?,
      w.order = some ((min (Double.place n) (Double.place (2 ^ 63)) : Nat) : Int) := by
  have hholds := Double.holds_nearest h
  have hplace : Double.place n = Format.nearest _ _ 1 := min_eq_left hholds.2.le
  have hx : (Binary.ofInt n : Double) = .finite false _ hholds :=
    (Binary.ofInt_natCast n).trans (Binary.ofQuanta_of_nearest hholds rfl)
  rw [hx, hplace]
  exact order_ofNumber hholds

namespace Bounds

variable {v : Double}

theorem admits_between_iff {low high : Bound} {boost : Single} :
    ({ gte := some low, lte := some high, boost } : Bounds).Admits v ↔
      (∃ w ∈ low.value?, w.le v) ∧ ∃ w ∈ high.value?, v.le w := by
  constructor
  · exact fun h => ⟨h.gte low rfl, h.lte high rfl⟩
  · rintro ⟨hlow, hhigh⟩
    have hnone : ∀ {P : Bound → Prop}, ∀ bound ∈ (none : Option Bound), P bound :=
      fun _ h => absurd h (Option.not_mem_none _)
    refine ⟨?_, hnone, ?_, hnone⟩
    · intro bound hbound
      obtain rfl : low = bound := Option.some.inj hbound
      exact hlow
    · intro bound hbound
      obtain rfl : high = bound := Option.some.inj hbound
      exact hhigh

/-- The values between two whole numbers, by their places on the line. -/
theorem admits_whole_iff {low high : Nat} (hlow : low < 2 ^ 64) (hhigh : high < 2 ^ 64)
    {boost : Single} :
    ({ gte := some (.ofNumber (.ofInt low)), lte := some (.ofNumber (.ofInt high)), boost } :
        Bounds).Admits v ↔
      ∃ i, v.order = some i ∧ (min (Double.place low) (Double.place (2 ^ 63)) : Nat) ≤ i ∧
        i ≤ (min (Double.place high) (Double.place (2 ^ 63)) : Nat) := by
  obtain ⟨x, hx, hxplace⟩ := Bound.order_ofNumber_ofInt hlow
  obtain ⟨y, hy, hyplace⟩ := Bound.order_ofNumber_ofInt hhigh
  rw [Option.mem_def] at hx hy
  rw [admits_between_iff, hx, hy]
  simp only [Option.mem_some, exists_eq_left', Binary.le_iff, hxplace, hyplace, Option.some.injEq]
  constructor
  · rintro ⟨⟨i, hi, hle⟩, j, hj, hge⟩
    obtain rfl := Option.some.inj (hi.symm.trans hj)
    exact ⟨i, hi, hle, hge⟩
  · rintro ⟨i, hi, hle, hge⟩
    exact ⟨⟨i, hi, hle⟩, i, hi, hge⟩

end Bounds

end QuantityQuery
