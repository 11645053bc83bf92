import QuantityQuery.Json.Number
import QuantityQuery.Proofs.Number.Shortest

/-!
# Numbers in a JSON text

A number is taken apart into its sign, its digits and its power of ten, and these are the
parts it is written of (`JsonNumber.Parts.ofLiteral_text`). A number of proper parts is read up to
its end (`JsonNumber.Parts.readLiteral_text`), wherever it is not gone on with.

All numbers that are written have proper parts: the whole ones are a sign and digits
(`JsonNumber.Parts.ofInt`), the others have a point or a power of ten besides
(`Layout.exists_parts`).

* `JsonNumber.Parts.text`: the parts of a number, one after the other;
* `JsonNumber.Parts.IsProper`: the parts that numbers of JSON have.
-/

namespace QuantityQuery

/-! ### Digits -/

/-- The digits of a number do not begin with a zero, unless it is zero. -/
theorem head?_decimalDigits {n : Nat} (h : n ≠ 0) : (decimalDigits n).head? ≠ some '0' := by
  induction n using Nat.strongRecOn with
  | ind n ih =>
    by_cases hn : n < 10
    · have hdigit : ∀ n < 10, n ≠ 0 → [Nat.digitChar n].head? ≠ some '0' := by decide
      rw [decimalDigits, Nat.toDigits_of_lt_base hn]
      exact hdigit n hn h
    · have hfirst := ih (n / 10) (by omega) (by omega)
      obtain ⟨c, rest, hcons⟩ := List.exists_cons_of_ne_nil (decimalDigits_ne_nil (n / 10))
      rw [hcons] at hfirst
      rw [decimalDigits, Nat.toDigits_of_base_le (by decide) (Nat.le_of_not_lt hn), ← decimalDigits,
        hcons]
      exact hfirst

theorem decimalDigits_zero : decimalDigits 0 = ['0'] := Nat.toDigits_zero 10

/-- The digits of a number are a zero, or do not begin with one. -/
theorem decimalDigits_proper (n : Nat) :
    (decimalDigits n).head? = some '0' → decimalDigits n = ['0'] := by
  by_cases h : n = 0
  · exact fun _ => h ▸ decimalDigits_zero
  · exact fun hhead => absurd hhead (head?_decimalDigits h)

/-- The shortest digits of what is not zero are not zero. -/
theorem Format.shortest_ne_zero {F : Format} (hF : 0 < F.precision) {n : Nat} (hn : F.Holds n)
    (h : n ≠ 0) (tie : Tie) : (F.shortest tie n).1 ≠ 0 := by
  intro hzero
  have hshort := F.toBinary_shortest hF hn tie false
  rw [hzero, Decimal.toBinary, if_pos rfl, Binary.zero] at hshort
  exact h (Binary.finite.inj hshort).2.symm

/-! ### Parts -/

namespace JsonNumber.Parts

variable (p : Parts) {rest : List Char}

/-- The point with the digits after it, where there are any. -/
def fractionText : List Char := if p.fraction = [] then [] else '.' :: p.fraction

/-- The power of ten, where there is one, always with a sign. -/
def powerText : List Char :=
  p.power.elim [] fun (down, digits) => 'e' :: (if down then '-' else '+') :: digits

/-- The parts of a number, one after the other. -/
def text : List Char := Layout.sign p.minus ++ (p.whole ++ (p.fractionText ++ p.powerText))

/-- The parts are digits, and there is no zero before other digits. -/
structure IsProper : Prop where
  whole : IsDigits p.whole
  leading : p.whole.head? = some '0' → p.whole = ['0']
  fraction : ∀ c ∈ p.fraction, c.isDigit
  power : ∀ power ∈ p.power, IsDigits power.2

variable {p}

/-! ### What goes on with a number -/

/-- A text that does not begin with a character of a numeral begins with none of some of them. -/
theorem stops_of_isNumeralChar (h : Stops isNumeralChar rest) {q : Char → Bool}
    (hq : ∀ c, q c → isNumeralChar c) : Stops q rest := by
  intro c hc
  have hnot := h c hc
  rw [Bool.eq_false_iff] at hnot ⊢
  exact fun hqc => hnot (hq c hqc)

/-- A power of ten, or no numeral at all, goes on with neither digits nor a point. -/
theorem stops_powerText {q : Char → Bool} (hq : ∀ c, q c → isNumeralChar c) (he : q 'e' = false)
    (hrest : Stops isNumeralChar rest) : Stops q (p.powerText ++ rest) := by
  rw [powerText]
  cases p.power with
  | none => exact stops_of_isNumeralChar hrest hq
  | some power => exact stops_cons.2 he

theorem stops_digit_powerText (hrest : Stops isNumeralChar rest) :
    Stops Char.isDigit (p.powerText ++ rest) :=
  stops_powerText (fun _ => isNumeralChar_of_isDigit) rfl hrest

theorem stops_point_powerText (hrest : Stops isNumeralChar rest) :
    Stops (· = '.') (p.powerText ++ rest) :=
  stops_powerText (fun c hc => by rw [of_decide_eq_true hc]; rfl) rfl hrest

theorem stops_digit_fractionText (hrest : Stops isNumeralChar rest) :
    Stops Char.isDigit (p.fractionText ++ (p.powerText ++ rest)) := by
  rw [fractionText]
  split
  · exact stops_digit_powerText hrest
  · exact stops_cons.2 rfl

/-! ### Reading the parts -/

theorem readDigitRun_append {digits : List Char} (hd : IsDigits digits)
    (hrest : Stops Char.isDigit rest) : Json.readDigitRun (digits ++ rest) = some digits := by
  rw [Json.readDigitRun, takeWhile_append_of_stops hd.2 hrest]
  obtain ⟨c, more, rfl⟩ := List.exists_cons_of_ne_nil hd.1
  rfl

theorem readMinus_append (hp : p.IsProper) (rest : List Char) :
    Json.readMinus (Layout.sign p.minus ++ (p.whole ++ rest)) = Layout.sign p.minus := by
  cases p.minus with
  | true => rfl
  | false =>
    obtain ⟨c, more, hcons⟩ := List.exists_cons_of_ne_nil hp.whole.1
    have hc : c.isDigit := hp.whole.2 c (hcons ▸ List.mem_cons_self)
    have hne : c ≠ '-' := ne_of_class hc rfl
    rw [hcons]
    change Json.readMinus (c :: (more ++ rest)) = []
    rw [Json.readMinus]
    exact fun _ heq => hne (List.head_eq_of_cons_eq heq)

theorem readWhole_append (hp : p.IsProper) (hrest : Stops Char.isDigit rest) :
    Json.readWhole (p.whole ++ rest) = some p.whole := by
  by_cases hzero : p.whole.head? = some '0'
  · rw [hp.leading hzero, List.singleton_append, Json.readWhole, if_neg]
    cases rest with
    | nil => simp
    | cons c rest => simpa using stops_cons.1 hrest
  · have hread := readDigitRun_append hp.whole hrest
    obtain ⟨c, more, hcons⟩ := List.exists_cons_of_ne_nil hp.whole.1
    rw [hcons, List.cons_append] at hread ⊢
    rw [Json.readWhole, hread]
    intro _ heq
    refine hzero ?_
    rw [hcons, List.head_eq_of_cons_eq heq]
    rfl

theorem readFraction_append (hp : p.IsProper) (hrest : Stops isNumeralChar rest) :
    Json.readFraction (p.fractionText ++ (p.powerText ++ rest)) = some p.fractionText := by
  rw [fractionText]
  split
  case isTrue =>
    have hpoint := stops_point_powerText (p := p) hrest
    rw [List.nil_append, Json.readFraction]
    rintro more heq
    rw [heq] at hpoint
    exact absurd (stops_cons.1 hpoint) (by decide)
  case isFalse hne =>
    rw [List.cons_append, Json.readFraction,
      readDigitRun_append ⟨hne, hp.fraction⟩ (stops_digit_powerText hrest), Option.map_some]

theorem readPower_append (hp : p.IsProper) (hrest : Stops isNumeralChar rest) :
    Json.readPower (p.powerText ++ rest) = some p.powerText := by
  have hdigit : Stops Char.isDigit rest :=
    stops_of_isNumeralChar hrest fun _ => isNumeralChar_of_isDigit
  have hproper := hp.power
  rw [powerText]
  cases hpower : p.power with
  | none =>
    rw [Option.elim_none, List.nil_append]
    cases rest with
    | nil => rfl
    | cons c rest =>
      have hc : ¬ (c = 'e' ∨ c = 'E') := by
        rintro (rfl | rfl) <;> exact absurd (stops_cons.1 hrest) (by decide)
      simp [Json.readPower, hc]
  | some power =>
    obtain ⟨down, digits⟩ := power
    have hread := readDigitRun_append (hproper _ hpower) hdigit
    cases down <;> simp [Json.readPower, hread]

/-- A number that is not gone on with is read up to its end. -/
theorem readLiteral_text (hp : p.IsProper) (hrest : Stops isNumeralChar rest) :
    Json.readLiteral (p.text ++ rest) = some p.text := by
  have htext : p.text ++ rest =
      Layout.sign p.minus ++ (p.whole ++ (p.fractionText ++ (p.powerText ++ rest))) := by
    simp only [text, List.append_assoc]
  rw [htext]
  simp only [Json.readLiteral, readMinus_append hp, List.drop_left,
    readWhole_append hp (stops_digit_fractionText hrest), readFraction_append hp hrest,
    readPower_append hp hrest, Option.bind_eq_bind, Option.bind_some, Option.pure_def]
  simp only [text, List.append_assoc]

/-! ### Taking a number apart -/

theorem spanFraction_fractionText (hp : p.IsProper) :
    spanFraction (p.fractionText ++ p.powerText) = (p.fraction, p.powerText) := by
  have hdigit := stops_digit_powerText (p := p) stops_nil
  have hpoint := stops_point_powerText (p := p) stops_nil
  rw [List.append_nil] at hdigit hpoint
  rw [fractionText]
  split
  case isTrue hnil =>
    rw [List.nil_append, hnil, spanFraction]
    intro more heq
    rw [heq] at hpoint
    exact absurd (stops_cons.1 hpoint) (by decide)
  case isFalse => exact spanDigits_append hp.fraction hdigit

theorem spanSign_powerText (hp : p.IsProper) :
    (match p.powerText with | [] => none | _ :: rest => some (spanSign rest)) = p.power := by
  have hproper := hp.power
  rw [powerText]
  cases hpower : p.power with
  | none => rfl
  | some power =>
    obtain ⟨down, digits⟩ := power
    cases down <;> rfl

/-- A number begins with a minus or a digit. -/
theorem exists_text_eq_cons (hp : p.IsProper) :
    ∃ c more, p.text = c :: more ∧ (c = '-' ∨ c.isDigit) := by
  rw [text]
  cases p.minus with
  | true => exact ⟨'-', _, rfl, .inl rfl⟩
  | false =>
    obtain ⟨c, more, hcons⟩ := List.exists_cons_of_ne_nil hp.whole.1
    exact ⟨c, _, by rw [hcons]; rfl, .inr (hp.whole.2 c (hcons ▸ List.mem_cons_self))⟩

theorem head?_text (hp : p.IsProper) : p.text.head? = some '-' ↔ p.minus := by
  rw [text]
  cases p.minus with
  | true => simp [Layout.sign]
  | false =>
    obtain ⟨c, more, hcons⟩ := List.exists_cons_of_ne_nil hp.whole.1
    have hne : c ≠ '-' := ne_of_class (hp.whole.2 c (hcons ▸ List.mem_cons_self)) rfl
    simp [Layout.sign, hcons, hne]

/-- A number is taken apart into the parts it is written of. -/
theorem ofLiteral_text (hp : p.IsProper) : ofLiteral p.text = p := by
  have hminus : decide (p.text.head? = some '-') = p.minus := by
    rw [Bool.eq_iff_iff, decide_eq_true_iff, head?_text hp]
  have hdrop : (if p.text.head? = some '-' then p.text.drop 1 else p.text) =
      p.whole ++ (p.fractionText ++ p.powerText) := by
    simp only [head?_text hp]
    rw [text]
    cases p.minus <;> rfl
  have hstops := stops_digit_fractionText (p := p) stops_nil
  rw [List.append_nil] at hstops
  simp only [ofLiteral, hdrop, hminus, spanDigits_append hp.whole.2 hstops,
    spanFraction_fractionText hp]
  exact congrArg (mk p.minus p.whole p.fraction) (spanSign_powerText hp)

/-! ### Whole numbers -/

/-- The parts of a whole number. -/
def ofInt (i : Int) : Parts := ⟨i < 0, decimalDigits i.natAbs, [], none⟩

theorem isProper_ofInt (i : Int) : (ofInt i).IsProper where
  whole := isDigits_decimalDigits _
  leading := decimalDigits_proper _
  fraction := fun _ h => absurd h List.not_mem_nil
  power := fun _ h => absurd h (Option.not_mem_none _)

theorem text_ofInt (i : Int) : (ofInt i).text = (toString i).toList := by
  rw [toList_toString_int, text]
  by_cases hi : i < 0 <;> simp [ofInt, hi, Layout.sign, fractionText, powerText]

end JsonNumber.Parts

/-- A whole number of 64 bits is read as it was written. -/
theorem JsonNumber.ofLiteral?_ofNat {n : Nat} (h : n ≤ maxNatural) :
    ofLiteral? (toString (n : Int)).toList = some (.natural n) := by
  rw [← Parts.text_ofInt, ofLiteral?, Parts.ofLiteral_text (Parts.isProper_ofInt _)]
  simp [Parts.ofInt, digitsValue_decimalDigits, h]

theorem JsonNumber.ofLiteral?_of_neg {i : Int} (hneg : i < 0)
    (h : -0x8000_0000_0000_0000 ≤ i) : ofLiteral? (toString i).toList = some (.negative i) := by
  have hpos : 0 < i.natAbs ∧ i.natAbs ≤ 0x8000_0000_0000_0000 := by omega
  have habs : -(i.natAbs : Int) = i := by omega
  have hle : i.natAbs ≤ maxNatural := hpos.2.trans (by decide)
  rw [← Parts.text_ofInt, ofLiteral?, Parts.ofLiteral_text (Parts.isProper_ofInt _)]
  simp only [Parts.ofInt, digitsValue_decimalDigits, hneg, hle, hpos, decide_true, Bool.not_true,
    and_self, if_true, Bool.false_eq_true, if_false, habs]

/-! ### Numbers with a point or a power of ten -/

/-- What is written with a point or a power of ten is read as no whole number. -/
theorem JsonNumber.ofLiteral?_real {p : Parts} (hp : p.IsProper)
    (hreal : ¬ (p.fraction = [] ∧ p.power = none)) : ofLiteral? p.text = p.real?.map real := by
  rw [ofLiteral?, Parts.ofLiteral_text hp]
  exact if_neg fun h => hreal ⟨h.1, h.2.1⟩

namespace Layout

variable {l : Layout} {digits : List Char}

/-- Digits before and behind a point are the parts of a number. -/
theorem exists_parts_pointed {whole fraction : List Char} (hw : IsDigits whole)
    (hleading : whole.head? = some '0' → whole = ['0']) (hf : IsDigits fraction) (minus : Bool) :
    ∃ p : JsonNumber.Parts, p.IsProper ∧ sign minus ++ (whole ++ '.' :: fraction) = p.text ∧
      ¬ (p.fraction = [] ∧ p.power = none) := by
  refine ⟨⟨minus, whole, fraction, none⟩, ⟨hw, hleading, hf.2, ?_⟩, ?_, fun h => hf.1 h.1⟩
  · exact fun _ h => absurd h (Option.not_mem_none _)
  · simp [JsonNumber.Parts.text, JsonNumber.Parts.fractionText, JsonNumber.Parts.powerText, hf.1]

/-- Wherever the point is put, there are digits before and behind it. -/
theorem exists_parts_placePoint (hpointed : l.pointed) (hd : IsDigits digits)
    (hleading : digits.head? ≠ some '0') (minus : Bool) (point : Int) :
    ∃ p : JsonNumber.Parts, p.IsProper ∧ sign minus ++ l.placePoint digits point = p.text ∧
      ¬ (p.fraction = [] ∧ p.power = none) := by
  rw [placePoint]
  split
  case isTrue =>
    have hfraction : IsDigits (List.replicate (-point).toNat '0' ++ digits) :=
      ⟨by simp [hd.1], fun c hc => (List.mem_append.1 hc).elim isDigit_of_mem_zeros (hd.2 c)⟩
    exact exists_parts_pointed isDigits_zero (fun _ => rfl) hfraction minus
  case isFalse hpoint =>
    split
    case isTrue =>
      have hwhole : IsDigits (digits ++ List.replicate (point.toNat - digits.length) '0') :=
        ⟨by simp [hd.1], fun c hc => (List.mem_append.1 hc).elim (hd.2 c) isDigit_of_mem_zeros⟩
      rw [pointZero, if_pos hpointed]
      refine exists_parts_pointed hwhole (fun h => absurd ?_ hleading) isDigits_zero minus
      obtain ⟨c, rest, rfl⟩ := List.exists_cons_of_ne_nil hd.1
      exact h
    case isFalse hlength =>
      have hpos : point.toNat ≠ 0 := by omega
      refine exists_parts_pointed ⟨by simp [hd.1, hpos], ?_⟩ ?_ ⟨?_, ?_⟩ minus
      · exact fun c hc => hd.2 c (List.mem_of_mem_take hc)
      · rw [List.head?_take, if_neg hpos]
        exact fun h => absurd h hleading
      · simp; omega
      · exact fun c hc => hd.2 c (List.mem_of_mem_drop hc)

theorem exists_parts_placePower (hplus : l.plus = ['+']) (hd : IsDigits digits)
    (hleading : digits.head? ≠ some '0') (minus : Bool) (e : Int) :
    ∃ p : JsonNumber.Parts, p.IsProper ∧ sign minus ++ l.placePower digits e = p.text ∧
      ¬ (p.fraction = [] ∧ p.power = none) := by
  refine ⟨⟨minus, digits.take 1, digits.drop 1, some (e < 0, decimalDigits e.natAbs)⟩,
    ⟨⟨by simp [hd.1], fun c hc => hd.2 c (List.mem_of_mem_take hc)⟩, ?_, ?_, ?_⟩, ?_, ?_⟩
  · rw [List.head?_take, if_neg Nat.one_ne_zero]
    exact fun h => absurd h hleading
  · exact fun c hc => hd.2 c (List.mem_of_mem_drop hc)
  · intro power hpower
    obtain rfl := Option.some.inj hpower
    exact isDigits_decimalDigits _
  · rw [placePower, hplus]
    by_cases he : e < 0 <;> cases digits.drop 1 <;>
      simp [JsonNumber.Parts.text, JsonNumber.Parts.fractionText, JsonNumber.Parts.powerText, he]
  · rintro ⟨-, hpower⟩
    cases hpower

/-- What is written of a finite number, where whole numbers end in a point and a zero, has proper
    parts with a point or a power of ten. -/
theorem exists_parts (hplus : l.plus = ['+']) (hpointed : l.pointed) {F : Format}
    (hF : 0 < F.precision) {x : Binary F} (hx : x.isFinite) :
    ∃ p : JsonNumber.Parts, p.IsProper ∧ (l.write x).toList = p.text ∧
      ¬ (p.fraction = [] ∧ p.power = none) := by
  cases x with
  | nan => cases hx
  | infinite => cases hx
  | finite minus n hn =>
    rw [write, String.toList_ofList, magnitude]
    split
    case isTrue =>
      rw [pointZero, if_pos hpointed]
      exact exists_parts_pointed isDigits_zero (fun _ => rfl) isDigits_zero minus
    case isFalse h0 =>
      have hne := F.shortest_ne_zero hF hn h0 l.tie
      generalize F.shortest l.tie n = shortest at hne
      obtain ⟨number, power⟩ := shortest
      have hd := isDigits_decimalDigits number
      have hleading := head?_decimalDigits hne
      dsimp only
      split
      · exact exists_parts_placePoint hpointed hd hleading minus _
      · exact exists_parts_placePower hplus hd hleading minus _

end Layout

end QuantityQuery
