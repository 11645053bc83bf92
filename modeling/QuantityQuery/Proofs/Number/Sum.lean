import QuantityQuery.Proofs.Number.Order

/-!
# Sums

A sum is rounded, so a number that is small enough is lost in it. With 24 significant
bits, adding to `1` what is at most half of the step after it, which is `2 ^ -24`, gives `1`
again, and adding anything greater gives a greater number (`Single.one_lt_add_one_iff`).
Adding to zero loses nothing (`Binary.zero_add_of_pos`).
-/

namespace QuantityQuery

attribute [local instance (2000)] instPowNat

namespace Binary

variable {F : Format}

theorem ofNat_zero_eq : (0 : Binary F) = zero false := by
  change ofInt ((0 : Nat) : Int) = zero false
  rw [ofInt_natCast, ofRatio_zero false Nat.one_pos]

theorem order_zero : (0 : Binary F).order = some 0 := by rw [ofNat_zero_eq]; rfl

/-- What stands above zero is an infinity or has a positive number of quanta. -/
theorem exists_of_pos {x : Binary F} (hfinite : x.isFinite) (hpos : lt 0 x) :
    ∃ n h, x = finite false n h ∧ 0 < n := by
  cases x with
  | nan => cases hfinite
  | infinite => cases hfinite
  | finite negative n h =>
    rw [lt, compareBy, order_zero, order, decide_eq_true_eq] at hpos
    cases negative with
    | true =>
      rw [signed, if_pos rfl] at hpos
      omega
    | false =>
      rw [signed, if_neg Bool.false_ne_true] at hpos
      exact ⟨n, h, rfl, by omega⟩

/-- A sum of positive numbers is the sum of their quanta, rounded. -/
theorem add_finite {m n : Nat} (hm : F.Holds m) (hn : F.Holds n) (hpos : 0 < m + n) :
    finite false m hm + finite false n hn = ofQuanta false (m + n) 1 := by
  change add _ _ = _
  rw [add]
  have hsum : signed false m + signed false n = ((m + n : Nat) : Int) := by
    simp [signed]
  have hne : ((m + n : Nat) : Int) ≠ 0 := by omega
  have hsign : decide (((m + n : Nat) : Int) < 0) = false := by simp; omega
  simp only [hsum, if_neg hne, hsign, Int.natAbs_natCast]

/-- Nothing is lost in a sum with zero. -/
theorem zero_add_of_pos {x : Binary F} (hfinite : x.isFinite) (hpos : lt 0 x) : 0 + x = x := by
  obtain ⟨n, hn, rfl, hpos⟩ := exists_of_pos hfinite hpos
  rw [ofNat_zero_eq, zero, add_finite _ _ (by omega)]
  refine ofQuanta_of_nearest hn ?_
  simpa using F.nearest_of_holds hn Nat.one_pos

end Binary

/-! ### Sums with one -/

namespace Single

/-- The format of the numbers with 24 significant bits. -/
abbrev format : Format := ⟨24, 149, 277⟩

theorem holds_one : format.Holds (2 ^ 149) := by decide +kernel

theorem one_eq : (1 : Single) = .finite false (2 ^ 149) holds_one := by decide +kernel

/-- Half of the step after one is rounded down to even, and what is greater is rounded up. -/
theorem lt_nearest_add_iff (n : Nat) :
    2 ^ 149 < format.nearest (n + 2 ^ 149) 1 ↔ 2 ^ 125 < n := by
  constructor
  · intro hlt
    by_contra hle
    have hmono : format.nearest (n + 2 ^ 149) 1 ≤ format.nearest (2 ^ 125 + 2 ^ 149) 1 :=
      Format.nearest_mono (by decide) 1 (by omega)
    have hround : format.nearest (2 ^ 125 + 2 ^ 149) 1 = 2 ^ 149 := by decide +kernel
    omega
  · intro hlt
    have hmono : format.nearest (2 ^ 125 + 1 + 2 ^ 149) 1 ≤ format.nearest (n + 2 ^ 149) 1 :=
      Format.nearest_mono (by decide) 1 (by omega)
    have hround : 2 ^ 149 < format.nearest (2 ^ 125 + 1 + 2 ^ 149) 1 := by decide +kernel
    omega

theorem le_nearest_add (n : Nat) : 2 ^ 149 ≤ format.nearest (n + 2 ^ 149) 1 := by
  have hmono : format.nearest (0 + 2 ^ 149) 1 ≤ format.nearest (n + 2 ^ 149) 1 :=
    Format.nearest_mono (by decide) 1 (by omega)
  have hround : format.nearest (0 + 2 ^ 149) 1 = 2 ^ 149 := by decide +kernel
  omega

/-- The place of a sum with one. -/
theorem exists_order_add_one {n : Nat} (hn : format.Holds n) :
    ∃ i : Nat, (Binary.finite false n hn + 1 : Single).order = some (i : Int) ∧ 2 ^ 149 ≤ i ∧
      (2 ^ 149 < i ↔ 2 ^ 125 < n) := by
  rw [one_eq, Binary.add_finite _ _ (by omega), Binary.ofQuanta]
  split
  case isTrue h => exact ⟨_, rfl, le_nearest_add n, lt_nearest_add_iff n⟩
  case isFalse h =>
    -- Beyond the format there is no small number.
    have hlimit : 2 ^ 149 < 2 ^ format.limit := by decide +kernel
    refine ⟨2 ^ format.limit, rfl, hlimit.le, iff_of_true hlimit ?_⟩
    by_contra hle
    have heq := Nat.le_antisymm (Nat.le_of_not_lt (mt (lt_nearest_add_iff n).1 hle))
      (le_nearest_add n)
    exact h ((congrArg format.Holds heq).mpr holds_one)

variable {x : Single}

theorem order_one : (1 : Single).order = some ((2 ^ 149 : Nat) : Int) := by rw [one_eq]; rfl

/-- Adding to one gives a greater number exactly if what is added is more than half of the step
    after one. -/
theorem one_lt_add_one_iff (hfinite : x.isFinite) (hpos : Binary.lt 0 x) :
    Binary.lt 1 (x + 1) ↔ Binary.lt (.ofRatio false 1 (2 ^ 24)) x := by
  obtain ⟨n, hn, rfl, -⟩ := Binary.exists_of_pos hfinite hpos
  obtain ⟨i, hi, -, hiff⟩ := exists_order_add_one hn
  have hhalf : (Binary.ofRatio false 1 (2 ^ 24) : Single).order = some ((2 ^ 125 : Nat) : Int) := by
    decide +kernel
  have hx : (Binary.finite false n hn : Single).order = some (n : Int) := rfl
  simp only [Binary.lt_iff, order_one, hi, hhalf, hx, Option.some.injEq, exists_eq_left',
    Int.ofNat_lt, hiff]

theorem zero_lt_add_one (hfinite : x.isFinite) (hpos : Binary.lt 0 x) :
    Binary.lt 0 (x + 1) := by
  obtain ⟨n, hn, rfl, -⟩ := Binary.exists_of_pos hfinite hpos
  obtain ⟨i, hi, hle, -⟩ := exists_order_add_one hn
  rw [Binary.lt_iff, Binary.order_zero, hi]
  simp only [Option.some.injEq, exists_eq_left']
  omega

end Single

end QuantityQuery
