import QuantityQuery.Number.Shortest
import QuantityQuery.Proofs.Number.Numeral
import QuantityQuery.Proofs.Number.Rounding

/-!
# Written numbers read back

A number in any layout reads back as the number (`Layout.readBinary?_write`), so
different numbers are written differently (`Layout.write_injective`).

* `Format.toBinary_shortest`: the shortest digits stand for the number they were
  chosen for;
* `Layout.readDecimal?_placePoint`, `Layout.readDecimal?_placePower`: wherever the
  point is put, and with a power of ten or without, the decimal is the same.
-/

namespace QuantityQuery

/-! ### Decimals of one value -/

namespace Decimal

variable {F : Format}

theorem toBinary_congr (hF : 0 < F.precision) {d e : Decimal} (hneg : d.negative = e.negative)
    (h : d.num * e.den = e.num * d.den) : d.toBinary F = e.toBinary F := by
  rw [toBinary_eq_ofRatio hF, toBinary_eq_ofRatio hF, hneg,
    Binary.ofRatio_congr _ d.den_pos e.den_pos h]

/-- Zeros at the end of the digits can as well go to the power of ten. -/
theorem toBinary_mul_pow (hF : 0 < F.precision) (negative : Bool) (m z : Nat) (p : Int) :
    toBinary F ⟨negative, m * 10 ^ z, p - z⟩ = toBinary F ⟨negative, m, p⟩ := by
  refine toBinary_congr hF rfl ?_
  simp only [num, den]
  have hexp : z + (p - z).toNat + (-p).toNat = p.toNat + (-(p - z)).toNat := by omega
  rw [Nat.mul_assoc, Nat.mul_assoc, Nat.mul_assoc, ← Nat.pow_add, ← Nat.pow_add, ← Nat.pow_add,
    ← Nat.add_assoc, hexp]

end Decimal

/-! ### The shortest digits -/

namespace Format

variable {F : Format} {n : Nat}

theorem readsBack_iff {units : Nat} : F.readsBack units n ↔ F.nearest units (5 ^ F.scale) = n := by
  simp [readsBack]

theorem readsBack_of_neighbour? {tie : Tie} {cut digits : Nat}
    (h : F.neighbour? tie n cut = some digits) : F.readsBack (digits * 10 ^ cut) n := by
  unfold neighbour? at h
  simp only at h
  generalize hlow : F.decimalUnits n / 10 ^ cut = low at h
  -- Whichever of the two neighbours is taken, it is one that was seen to read back.
  split at h
  case h_1 => cases h
  case h_2 h₁ _ => cases h; exact h₁
  case h_3 _ h₂ => cases h; exact h₂
  case h_4 h₁ h₂ =>
    have hboth : digits = low ∨ digits = low + 1 := by
      split at h
      · cases h; exact .inl rfl
      · split at h
        · cases h; exact .inr rfl
        · split at h <;> cases h <;> omega
    rcases hboth with rfl | rfl
    · exact h₁
    · exact h₂

theorem readsBack_decimalUnits (hn : F.Holds n) : F.readsBack (F.decimalUnits n) n :=
  readsBack_iff.2 (F.nearest_of_holds hn (Nat.pow_pos (by decide)))

theorem readsBack_shortestFrom (hn : F.Holds n) (tie : Tie) :
    ∀ cut, F.readsBack ((F.shortestFrom tie n cut).1 * 10 ^ (F.shortestFrom tie n cut).2) n
  | 0 => by simpa [shortestFrom] using readsBack_decimalUnits hn
  | cut + 1 => by
    rw [shortestFrom]
    split
    case h_1 digits h => exact readsBack_of_neighbour? h
    case h_2 => exact readsBack_shortestFrom hn tie cut

/-- The shortest digits of a magnitude stand for it. -/
theorem toBinary_shortest (hF : 0 < F.precision) (hn : F.Holds n) (tie : Tie) (negative : Bool) :
    Decimal.toBinary F ⟨negative, (F.shortest tie n).1, (F.shortest tie n).2⟩ =
      .finite negative n hn := by
  let cuts := (decimalDigits (F.decimalUnits n)).length
  have hback := readsBack_iff.1 (readsBack_shortestFrom hn tie cuts)
  rcases hfrom : F.shortestFrom tie n cuts with ⟨digits, cut⟩
  simp only [hfrom] at hback
  have hshortest : F.shortest tie n = (digits, (cut : Int) - F.scale) := by
    simp only [shortest]
    rw [hfrom]
  rw [hshortest, Decimal.toBinary_eq_ofRatio hF]
  refine Binary.ofQuanta_of_nearest hn ?_
  rw [← hback]
  -- In units of `10 ^ -scale` on the right, in quanta of `2 ^ -scale` on the left.
  refine F.nearest_congr (Decimal.den_pos _) (Nat.pow_pos (by decide)) ?_
  simp only [Decimal.num, Decimal.den]
  have hexp : ((cut : Int) - F.scale).toNat + F.scale =
      cut + (-((cut : Int) - F.scale)).toNat := by omega
  calc digits * 10 ^ ((cut : Int) - F.scale).toNat * 2 ^ F.scale * 5 ^ F.scale
      = digits * (10 ^ ((cut : Int) - F.scale).toNat * (2 * 5) ^ F.scale) := by
        rw [Nat.mul_pow]; ring
    _ = digits * 10 ^ (cut + (-((cut : Int) - F.scale)).toNat) := by
        rw [show 2 * 5 = 10 from rfl, ← Nat.pow_add, hexp]
    _ = digits * 10 ^ cut * 10 ^ (-((cut : Int) - F.scale)).toNat := by
        rw [Nat.pow_add, Nat.mul_assoc]

end Format

/-! ### Layouts -/

namespace Layout

variable (l : Layout) {digits : List Char}

theorem isDigits_zero : IsDigits ['0'] := ⟨by simp, by simp⟩

/-- With the point after the first `point` digits, a decimal of those digits is read. -/
theorem readDecimal?_placePoint (hd : IsDigits digits) (negative : Bool) (point : Int) :
    ∃ z : Nat, readDecimal? negative (l.placePoint digits point) =
      some ⟨negative, digitsValue digits * 10 ^ z, point - digits.length - z⟩ := by
  have hzeros : ∀ k, IsDigits (digits ++ List.replicate k '0') := fun k =>
    ⟨by simp [hd.1], fun c hc => (List.mem_append.1 hc).elim (hd.2 c) isDigit_of_mem_zeros⟩
  rw [placePoint]
  split
  case isTrue hpoint =>
    -- The digits stand behind a zero, the point and more zeros.
    refine ⟨0, ?_⟩
    have hfraction : ∀ c ∈ List.replicate (-point).toNat '0' ++ digits, c.isDigit :=
      fun c hc => (List.mem_append.1 hc).elim isDigit_of_mem_zeros (hd.2 c)
    have hvalue : digitsValue (['0'] ++ (List.replicate (-point).toNat '0' ++ digits)) =
        digitsValue digits := by
      rw [← List.append_assoc, List.singleton_append, ← List.replicate_succ, digitsValue_append,
        digitsValue_zeros, Nat.zero_mul, Nat.zero_add]
    have hread := readDecimal?_point negative isDigits_zero hfraction
    rw [hvalue, List.singleton_append] at hread
    rw [List.cons_append, List.cons_append, hread, Nat.pow_zero, Nat.mul_one]
    simp only [List.length_append, List.length_replicate]
    congr 2
    omega
  case isFalse hpoint =>
    split
    case isTrue hlen =>
      -- The digits are followed by zeros, and by a point and a zero where the layout has them.
      have hlen' : point = digits.length + (point.toNat - digits.length : Nat) := by omega
      generalize point.toNat - digits.length = k at hlen'
      rw [pointZero]
      split
      · refine ⟨k + 1, ?_⟩
        rw [readDecimal?_point negative (hzeros k) isDigits_zero.2, List.append_assoc,
          digitsValue_append, ← List.replicate_succ', digitsValue_zeros]
        simp only [List.length_replicate, List.length_singleton]
        congr 2
        omega
      · refine ⟨k, ?_⟩
        rw [List.append_nil, readDecimal?_digits negative (hzeros k), digitsValue_append,
          digitsValue_zeros]
        simp only [List.length_replicate]
        congr 2
        omega
    case isFalse hlen =>
      -- The point stands between the digits.
      refine ⟨0, ?_⟩
      have hwhole : IsDigits (digits.take point.toNat) :=
        ⟨by simp [hd.1]; omega, fun c hc => hd.2 c (List.mem_of_mem_take hc)⟩
      rw [readDecimal?_point negative hwhole fun c hc => hd.2 c (List.mem_of_mem_drop hc),
        List.take_append_drop, List.length_drop]
      congr 2
      · omega
      · omega

/-- With the point after the first digit and a power of ten, a decimal of the digits is read. -/
theorem readDecimal?_placePower (hplus : l.plus = [] ∨ l.plus = ['+']) (hd : IsDigits digits)
    (negative : Bool) (e : Int) :
    readDecimal? negative (l.placePower digits e) =
      some ⟨negative, digitsValue digits, e - (digits.length - 1 : Nat)⟩ := by
  have hpower := readExponent?_digits hplus e
  obtain ⟨c, rest, rfl⟩ := List.exists_cons_of_ne_nil hd.1
  have hc : IsDigits [c] := ⟨by simp, fun d hd' => hd.2 d (by simp_all)⟩
  rw [placePower]
  cases rest with
  | nil =>
    simpa using readDecimal?_whole negative hc hpower
  | cons d rest =>
    have hread := readDecimal?_fraction negative hc
      (fun x hx => hd.2 x (List.mem_cons_of_mem _ hx)) hpower
    simpa using hread

variable {F : Format} {n : Nat}

theorem readDecimal?_magnitude (hF : 0 < F.precision) (hplus : l.plus = [] ∨ l.plus = ['+'])
    (hn : F.Holds n) (negative : Bool) :
    (readDecimal? negative (l.magnitude F n)).map (Decimal.toBinary F) =
      some (.finite negative n hn) := by
  rw [magnitude]
  split
  case isTrue hzero =>
    subst hzero
    rw [pointZero]
    split
    · have hread := readDecimal?_point negative isDigits_zero isDigits_zero.2
      rw [List.singleton_append] at hread
      rw [hread, Option.map_some, Decimal.toBinary_eq_ofRatio hF]
      simp only [Decimal.num, digitsValue, digitValue]
      exact congrArg some (Binary.ofRatio_zero _ (Decimal.den_pos _))
    · rw [readDecimal?_digits negative isDigits_zero, Option.map_some,
        Decimal.toBinary_eq_ofRatio hF]
      exact congrArg some (Binary.ofRatio_zero _ (Decimal.den_pos _))
  case isFalse =>
    have hshort := F.toBinary_shortest hF hn l.tie negative
    -- Both ways to place the digits give a decimal of the value of the shortest one.
    generalize hs : F.shortest l.tie n = shortest at hshort
    obtain ⟨number, power⟩ := shortest
    have hd := isDigits_decimalDigits number
    dsimp only
    split
    · obtain ⟨z, hz⟩ := l.readDecimal?_placePoint hd negative
        (power + (decimalDigits number).length - 1 + 1)
      rw [hz, Option.map_some, Decimal.toBinary_mul_pow hF, digitsValue_decimalDigits, ← hshort]
      congr 3
      omega
    · have hpos := List.length_pos_iff.2 hd.1
      rw [l.readDecimal?_placePower hplus hd, Option.map_some, digitsValue_decimalDigits, ← hshort]
      congr 3
      omega

/-- A magnitude is written with a digit first. -/
theorem exists_magnitude_eq_cons (n : Nat) :
    ∃ c rest, l.magnitude F n = c :: rest ∧ c.isDigit := by
  rw [magnitude]
  split
  · exact ⟨'0', _, rfl, rfl⟩
  · generalize F.shortest l.tie n = shortest
    obtain ⟨number, power⟩ := shortest
    obtain ⟨hne, hd⟩ := isDigits_decimalDigits number
    obtain ⟨c, rest, hcons⟩ := List.exists_cons_of_ne_nil hne
    have hc : c.isDigit := hd c (hcons ▸ List.mem_cons_self)
    simp only [hcons]
    split
    · rw [placePoint]
      split
      · exact ⟨'0', _, rfl, rfl⟩
      · split
        · exact ⟨c, _, rfl, hc⟩
        · -- The point is not before the first digit.
          obtain ⟨k, hk⟩ : ∃ k, (power + (c :: rest).length - 1 + 1).toNat = k + 1 :=
            ⟨(power + (c :: rest).length - 1 + 1).toNat - 1, by omega⟩
          rw [hk, List.take_succ_cons]
          exact ⟨c, _, rfl, hc⟩
    · exact ⟨c, _, rfl, hc⟩

/-- A written number reads back. -/
theorem readBinary?_write (hF : 0 < F.precision) (hplus : l.plus = [] ∨ l.plus = ['+'])
    (x : Binary F) : readBinary? F (l.write x).toList = some x := by
  cases x with
  | nan => simp [write, readBinary?, spanSign]
  | infinite negative => cases negative <;> simp [write, sign, readBinary?, spanSign]
  | finite negative n hn =>
    obtain ⟨c, rest, hcons, hc⟩ := l.exists_magnitude_eq_cons (F := F) n
    obtain ⟨hpos, hneg⟩ := readBinary?_of_isDigit (F := F) hc rest
    have hread := l.readDecimal?_magnitude hF hplus hn negative
    rw [hcons] at hread
    rw [write, String.toList_ofList, hcons]
    cases negative with
    | false => exact hpos.trans hread
    | true => exact hneg.trans hread

/-- The characters that numbers are written with. -/
theorem mem_write (hF : 0 < F.precision) (hplus : l.plus = [] ∨ l.plus = ['+']) (x : Binary F)
    {c : Char} (hc : c ∈ (l.write x).toList) : isNumeralChar c ∨ c ∈ ['N', 'a', 'i', 'n', 'f'] := by
  cases x with
  | nan => exact .inr (by simp [write] at hc ⊢; tauto)
  | infinite negative =>
    cases negative <;> simp [write, sign] at hc
    · exact .inr (by simp; tauto)
    · rcases hc with rfl | hc
      · exact .inl rfl
      · exact .inr (by simp; tauto)
  | finite negative n hn =>
    exact .inl (isNumeralChar_of_readBinary? (l.readBinary?_write hF hplus _) rfl c hc)

theorem write_injective (hF : 0 < F.precision) (hplus : l.plus = [] ∨ l.plus = ['+'])
    {x y : Binary F} (h : l.write x = l.write y) : x = y := by
  have hx := l.readBinary?_write hF hplus x
  rw [h, l.readBinary?_write hF hplus y] at hx
  exact (Option.some.inj hx).symm

end Layout

end QuantityQuery
