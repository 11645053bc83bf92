import QuantityQuery.Json.Reader

/-!
# Strings in JSON

A string reads back as it was written (`Json.readString_writeString`): every escape stands
for the character it was written for (`Json.readPoints_escapeChar`), and a character is no half
of a pair of surrogates, so nothing is joined (`Json.joinPairs_map_toNat`).
-/

namespace QuantityQuery.Json

/-! ### Surrogates -/

/-- A character is no surrogate. -/
theorem not_isSurrogate (c : Char) :
    isHighSurrogate c.toNat = false ∧ isLowSurrogate c.toNat = false := by
  have hvalid : c.toNat < 0xd800 ∨ 0xdfff < c.toNat ∧ c.toNat < 0x110000 := c.valid
  simp only [isHighSurrogate, isLowSurrogate, Bool.and_eq_false_iff, decide_eq_false_iff_not]
  omega

theorem joinPairs_map_toNat (text : List Char) :
    joinPairs (text.map Char.toNat) = some text := by
  induction text with
  | nil => rfl
  | cons c text ih =>
    obtain ⟨hhigh, hlow⟩ := not_isSurrogate c
    cases text with
    | nil => simp [joinPairs, hhigh, hlow]
    | cons d text =>
      rw [List.map_cons] at ih ⊢
      rw [List.map_cons, joinPairs, ih]
      simp [hhigh, hlow]

/-! ### Escapes -/

/-- A character below the space, in four digits of base sixteen. -/
theorem exists_hexDigits {n : Nat} (h : n < 32) :
    ∃ a b c d, List.replicate (4 - (hexDigits n).length) '0' ++ hexDigits n = [a, b, c, d] ∧
      hexValue4? a b c d = some n := by
  have htable : ∀ n < 32, List.replicate (4 - (hexDigits n).length) '0' ++ hexDigits n =
        ['0', '0', (n / 16).digitChar, (n % 16).digitChar] ∧
      hexValue4? '0' '0' (n / 16).digitChar (n % 16).digitChar = some n := by decide
  exact ⟨_, _, _, _, htable n h⟩

/-- A character is read as it was written. -/
theorem readPoints_escapeChar (c : Char) (rest : List Char) :
    readPoints (escapeChar c ++ rest) =
      (readPoints rest).map fun (points, size) =>
        (c.toNat :: points, size + (escapeChar c).length) := by
  unfold escapeChar
  split
  case h_8 hquote hslash _ _ _ _ _ =>
    split
    case isTrue hcontrol =>
      have hlt : c.toNat < 32 := hcontrol
      obtain ⟨a, b, d, e, hdigits, hvalue⟩ := exists_hexDigits hlt
      simp only [List.cons_append, hdigits, List.nil_append]
      rw [readPoints, hvalue]
      rfl
    case isFalse hcontrol =>
      rw [List.singleton_append, readPoints]
      · simp only [hcontrol, decide_false, Bool.false_or]
        rw [if_neg (by simpa using hslash)]
        rfl
      · exact hquote
      · exact fun _ _ _ _ _ h _ => hslash h
      · exact fun _ _ h _ => hslash h
  all_goals rfl

/-- A string reads back as it was written, up to its closing quote. -/
theorem readString_writeString (text : String) (rest : List Char) :
    readString (text.toList.flatMap escapeChar ++ ['"'] ++ rest) =
      some (some text, (text.toList.flatMap escapeChar ++ ['"']).length) := by
  have hpoints : ∀ chars : List Char,
      readPoints (chars.flatMap escapeChar ++ ['"'] ++ rest) =
        some (chars.map Char.toNat, (chars.flatMap escapeChar ++ ['"']).length) := by
    intro chars
    induction chars with
    | nil => rfl
    | cons c chars ih =>
      rw [List.flatMap_cons, List.append_assoc, List.append_assoc, readPoints_escapeChar,
        ← List.append_assoc, ih, Option.map_some, List.map_cons, List.append_assoc,
        @List.length_append _ (escapeChar c), Nat.add_comm]
  simp only [readString, hpoints, Option.map_some, joinPairs_map_toNat, String.ofList_toList]

end QuantityQuery.Json
