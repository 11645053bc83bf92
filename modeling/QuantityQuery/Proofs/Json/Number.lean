import QuantityQuery.Proofs.Json.Tree
import QuantityQuery.Proofs.Number.Order

/-!
# Numbers read from JSON

Every number that is read is within its range (`JsonNumber.inRange_of_ofLiteral?`); none is
infinite, as the only step that makes a number greater is refused where it goes beyond all finite
numbers, and a quotient by a power of ten is no greater than the dividend.

* `JsonNumber.InRange`: the ranges of whole numbers and of others;
* `Json.Survives`: a number is read from what is written of it.
-/

namespace QuantityQuery

attribute [local instance (2000)] instPowNat

/-! ### Quotients -/

namespace Format

variable {F : Format}

/-- Less than a whole number that is rounded to a number of the format, whole numbers are, too. -/
theorem holds_nearest_of_le (hF : 0 < F.precision) {m n : Nat} (h : m ≤ n)
    (hn : F.Holds (F.nearest (n * 2 ^ F.scale) 1)) : F.Holds (F.nearest (m * 2 ^ F.scale) 1) :=
  ⟨step_dvd_nearest hF _ _,
    Nat.lt_of_le_of_lt (nearest_mono hF 1 (Nat.mul_le_mul_right _ h)) hn.2⟩

/-- A whole number that is not zero is not rounded below one. -/
theorem two_pow_scale_le_nearest (hF : 0 < F.precision) {n : Nat} (h : 0 < n) :
    2 ^ F.scale ≤ F.nearest (n * 2 ^ F.scale) 1 := by
  have hle : 2 ^ F.scale ≤ n * 2 ^ F.scale := Nat.le_mul_of_pos_left _ h
  have hne : n * 2 ^ F.scale / 1 ≠ 0 := by
    rw [Nat.div_one]
    exact (Nat.lt_of_lt_of_le (Nat.two_pow_pos _) hle).ne'
  refine le_trans (Nat.pow_le_pow_right (by decide) ?_) (two_pow_log2_le_nearest hF hne)
  rw [Nat.div_one] at hne ⊢
  exact (Nat.le_log2 hne).2 hle

end Format

namespace Binary

variable {F : Format} {x y : Binary F}

/-- A finite number over one that is not less than one is finite. -/
theorem isFinite_div (hF : 0 < F.precision) (hx : x.isFinite) {b : Bool} {n : Nat}
    {hn : F.Holds n} (hone : 2 ^ F.scale ≤ n) : (x / finite b n hn).isFinite := by
  cases x with
  | nan => cases hx
  | infinite => cases hx
  | finite a m hm =>
    have hpos : 0 < n := Nat.lt_of_lt_of_le (Nat.two_pow_pos _) hone
    have hle : F.nearest (m * 2 ^ F.scale) n ≤ m := by
      have hmono := Format.nearest_mono hF n (Nat.mul_le_mul_left m hone)
      rwa [F.nearest_of_holds hm hpos] at hmono
    have hholds : F.Holds (F.nearest (m * 2 ^ F.scale) n) :=
      ⟨Format.step_dvd_nearest hF _ _, Nat.lt_of_le_of_lt hle hm.2⟩
    change (div (finite a m hm) (finite b n hn)).isFinite
    rw [div, if_neg hpos.ne', ofRatio, ofQuanta_of_nearest hholds rfl]
    rfl

/-- A number is the nearest to itself. -/
theorem convert_self (x : Binary F) : (x.convert : Binary F) = x := by
  cases x with
  | nan => rfl
  | infinite => rfl
  | finite negative n hn =>
    exact ofQuanta_of_nearest hn (F.nearest_of_holds hn (Nat.two_pow_pos _))

end Binary

namespace JsonNumber

/-! ### Numbers in range -/

/-- Whole numbers are those of 64 bits, and other numbers are finite. -/
def InRange : JsonNumber → Prop
  | natural n => n ≤ maxNatural
  | negative i => -0x8000_0000_0000_0000 ≤ i ∧ i < 0
  | real x => x.isFinite

theorem isFinite_ofInt {n : Nat} (h : n ≤ maxNatural) : (.ofInt n : Double).isFinite :=
  Binary.isFinite_ofInt (Double.holds_nearest (Nat.lt_of_le_of_lt h (by decide)))

theorem joinDigits_le {n : Nat} (h : n ≤ maxNatural) (digits : List Char) :
    (joinDigits n digits).1 ≤ maxNatural := by
  induction digits generalizing n with
  | nil => exact h
  | cons c rest ih =>
    simp only [joinDigits]
    split
    case isTrue hle => exact ih hle
    case isFalse => exact h

/-- The greatest power of ten is a finite number. -/
theorem holds_maxPower : Format.Holds ⟨53, 1074, 2098⟩
    (Format.nearest ⟨53, 1074, 2098⟩ (10 ^ maxPower * 2 ^ Format.scale ⟨53, 1074, 2098⟩) 1) := by
  decide +kernel

theorem powerOfTen_eq (e : Nat) : powerOfTen e = .ofRatio false (10 ^ e) 1 := by
  rw [powerOfTen, Decimal.toBinary_eq_ofRatio (by decide)]
  simp [Decimal.num, Decimal.den]

/-- A quotient by a power of ten is finite. -/
theorem isFinite_div_powerOfTen {x : Double} (hx : x.isFinite) {e : Nat} (he : e ≤ maxPower) :
    (x / powerOfTen e).isFinite := by
  have hle : 10 ^ e ≤ 10 ^ maxPower := Nat.pow_le_pow_right (by decide) he
  have hholds := Format.holds_nearest_of_le (by decide) hle holds_maxPower
  rw [powerOfTen_eq, Binary.ofRatio, Binary.ofQuanta_of_nearest hholds rfl]
  exact Binary.isFinite_div (by decide) hx
    (Format.two_pow_scale_le_nearest (by decide) (Nat.pow_pos (by decide)))

theorem isFinite_divideByPower {x : Double} (hx : x.isFinite) (e : Nat) :
    (divideByPower x e).isFinite := by
  fun_induction divideByPower x e with
  | case1 x e he => exact isFinite_div_powerOfTen hx he
  | case2 => exact hx
  | case3 x e he hzero ih => exact ih (isFinite_div_powerOfTen hx (Nat.le_refl _))

theorem isFinite_scale? {n : Nat} (hn : n ≤ maxNatural) {e : Int} {x : Double}
    (h : scale? n e = some x) : x.isFinite := by
  have hfinite := isFinite_ofInt hn
  rw [scale?] at h
  split at h
  · obtain rfl := Option.some.inj h
    exact isFinite_divideByPower hfinite _
  · split at h
    · split at h
      · obtain rfl := Option.some.inj h
        exact hfinite
      · cases h
    · exact (Option.filter_eq_some_iff.1 h).2

theorem isFinite_negate {x : Double} (hx : x.isFinite) : (negate x).isFinite := by
  cases x with
  | nan => cases hx
  | infinite => cases hx
  | finite => rfl

theorem Parts.joined_fst_le (p : Parts) : p.joined.1 ≤ maxNatural :=
  joinDigits_le (joinDigits_le (Nat.zero_le _) _) _

/-- A number with a point or a power of ten is finite. -/
theorem Parts.isFinite_real? {p : Parts} {x : Double} (h : p.real? = some x) : x.isFinite := by
  have hn := p.joined_fst_le
  rw [real?] at h
  generalize p.joined = joined at h hn
  obtain ⟨n, e⟩ := joined
  dsimp only at h hn
  -- The magnitude comes from a power of ten, or it is zero.
  have hmagnitude : ∀ magnitude : Option Double, (∀ y ∈ magnitude, y.isFinite) →
      (if p.minus then magnitude.map negate else magnitude) = some x → x.isFinite := by
    intro magnitude hfinite heq
    split at heq
    · obtain ⟨y, hy, rfl⟩ := Option.map_eq_some_iff.1 heq
      exact isFinite_negate (hfinite y hy)
    · exact hfinite x heq
  refine hmagnitude _ (fun y hy => ?_) h
  rw [Option.mem_def] at hy
  split at hy
  · exact isFinite_scale? hn hy
  · split at hy
    · exact isFinite_scale? hn hy
    · split at hy
      · obtain rfl := Option.some.inj hy
        exact isFinite_ofInt (Nat.zero_le _)
      · cases hy

/-- Every number that is read is within its range. -/
theorem inRange_of_ofLiteral? {literal : List Char} {n : JsonNumber}
    (h : ofLiteral? literal = some n) : n.InRange := by
  simp only [ofLiteral?] at h
  split at h
  case isTrue hwhole =>
    split at h
    · obtain rfl := Option.some.inj h
      exact hwhole.2.2
    · split at h
      case isTrue hrange =>
        obtain rfl := Option.some.inj h
        simp only [InRange]
        omega
      case isFalse =>
        obtain rfl := Option.some.inj h
        exact isFinite_negate (isFinite_ofInt hwhole.2.2)
  case isFalse =>
    obtain ⟨x, hx, rfl⟩ := Option.map_eq_some_iff.1 h
    exact Parts.isFinite_real? hx

end JsonNumber

/-! ### Numbers that are read -/

namespace Json

variable {F : Format} {json : Json} {n : JsonNumber}

theorem readNumber_eq_ok_iff :
    json.readNumber = .ok n ↔
      ∃ literal, json = number literal ∧ JsonNumber.ofLiteral? literal = some n := by
  cases json with
  | number literal =>
    rw [readNumber]
    cases hn : JsonNumber.ofLiteral? literal <;> simp [orMalformed, hn]
  | _ => simp [readNumber]

/-- Numbers that are read are in range. -/
theorem inRange_of_readNumber (h : json.readNumber = .ok n) : n.InRange := by
  obtain ⟨literal, -, hn⟩ := readNumber_eq_ok_iff.1 h
  exact JsonNumber.inRange_of_ofLiteral? hn

/-- What a number is read from can be kept for later. -/
theorem isKeepable_of_readNumber (h : json.readNumber = .ok n) (depth : Nat) :
    json.isKeepable depth := by
  obtain ⟨literal, rfl, hn⟩ := readNumber_eq_ok_iff.1 h
  rw [isKeepable, hn]
  rfl

theorem exists_of_readBinary {x : Binary F} (h : json.readBinary = .ok x) :
    ∃ n, json.readNumber = .ok n ∧ n.toBinary = x := by
  obtain ⟨n, hn, hx⟩ := bind_eq_ok.1 h
  exact ⟨n, hn, Except.ok.inj hx⟩

theorem le_of_readNatural {m : Nat} (h : json.readNatural = .ok m) :
    m ≤ JsonNumber.maxNatural := by
  obtain ⟨n, hn, hm⟩ := bind_eq_ok.1 h
  cases n with
  | natural n =>
    obtain rfl := Except.ok.inj hm
    exact inRange_of_readNumber hn
  | _ => cases hm

end Json

/-! ### Numbers that are written -/

namespace Json

variable {l : Layout} {F : Format}

theorem isProper_ofInt (i : Int) : (ofInt i).IsProper := by
  rw [ofInt, ← JsonNumber.Parts.text_ofInt]
  exact .number (JsonNumber.Parts.isProper_ofInt i)

theorem isProper_ofBinary (hplus : l.plus = ['+']) (hpointed : l.pointed) (hF : 0 < F.precision)
    (x : Binary F) : (ofBinary l x).IsProper := by
  rw [ofBinary]
  split
  case isTrue hx =>
    obtain ⟨p, hp, htext, -⟩ := Layout.exists_parts hplus hpointed hF hx
    rw [htext]
    exact .number hp
  case isFalse => exact .null

theorem isProper_ofDouble (x : Double) : (ofDouble x).IsProper :=
  isProper_ofBinary rfl rfl (by decide) x

theorem isProper_ofSingle (x : Single) : (ofSingle x).IsProper :=
  isProper_ofBinary rfl rfl (by decide) x

/-- What is not finite is written as a null, and no number is read from it. -/
theorem isFinite_of_readBinary {x y : Binary F} (h : (ofBinary l x).readBinary = .ok y) :
    x.isFinite := by
  rw [ofBinary] at h
  split at h
  case isTrue hx => exact hx
  case isFalse => cases h

/-- A number is read from what is written of it, if it is finite. What is not finite has no number
    in JSON. -/
def Survives (l : Layout) (x : Binary F) : Prop :=
  x.isFinite → (ofBinary l x).readBinary = .ok x

/-- What is made of a single that is read back is made of it exactly if it is finite. -/
theorem Survives.bind_iff {α : Type} {x : Single} (h : Survives JsonNumber.singleLayout x)
    {f : Single → Except Refusal α} {a : α} (hf : f x = .ok a) :
    (ofSingle x).readBinary >>= f = .ok a ↔ x.isFinite := by
  refine ⟨fun hbind => ?_, fun hx => bind_eq_ok.2 ⟨x, h hx, hf⟩⟩
  obtain ⟨y, hread, -⟩ := bind_eq_ok.1 hbind
  exact isFinite_of_readBinary hread

theorem ofBinary_ne_null {x : Binary F} (hx : x.isFinite) : ofBinary l x ≠ null := by
  rw [ofBinary, if_pos hx]
  exact fun h => nomatch h

theorem readNumber_ofNat {n : Nat} (h : n ≤ JsonNumber.maxNatural) :
    (ofInt n).readNumber = .ok (.natural n) := by
  rw [ofInt, readNumber, JsonNumber.ofLiteral?_ofNat h, orMalformed]

theorem readNatural_ofInt {n : Nat} (h : n ≤ JsonNumber.maxNatural) :
    (ofInt n).readNatural = .ok n := by
  rw [readNatural, readNumber_ofNat h]
  rfl

theorem readNumber_ofInt_of_neg {i : Int} (hneg : i < 0) (h : -0x8000_0000_0000_0000 ≤ i) :
    (ofInt i).readNumber = .ok (.negative i) := by
  rw [ofInt, readNumber, JsonNumber.ofLiteral?_of_neg hneg h, orMalformed]

/-- A number that is written with a point or a power of ten and reads back is read as no whole
    number. -/
theorem readNumber_ofDouble {x : Double} (h : (ofDouble x).readBinary = .ok x) :
    (ofDouble x).readNumber = .ok (.real x) := by
  have hx := isFinite_of_readBinary h
  obtain ⟨p, hp, htext, hreal⟩ := Layout.exists_parts (l := JsonNumber.doubleLayout) rfl rfl
    (by decide) hx
  obtain ⟨n, hn, hnx⟩ := exists_of_readBinary h
  obtain ⟨literal, hliteral, hof⟩ := readNumber_eq_ok_iff.1 hn
  -- A number of these parts is no whole one.
  obtain rfl : literal = p.text := by
    rw [ofDouble, ofBinary, if_pos hx, htext] at hliteral
    exact (Json.number.inj hliteral).symm
  rw [JsonNumber.ofLiteral?_real hp hreal] at hof
  obtain ⟨y, -, rfl⟩ := Option.map_eq_some_iff.1 hof
  obtain rfl : y = x := by rwa [JsonNumber.toBinary, Binary.convert_self] at hnx
  exact hn

end Json

end QuantityQuery
