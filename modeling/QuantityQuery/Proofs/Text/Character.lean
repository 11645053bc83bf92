import QuantityQuery.Text.Character

/-!
# Classes of characters

Letters are neither blanks nor digits. Below code point 128 this is arithmetic, beyond
it the tables of ranges are compared (`inRanges_eq_false`). Nothing becomes a blank in
lowercase (`isBlank_lowercaseChar`): no run of capital letters is moved onto one. Nor does
anything become a digit or a sign before the letters (`eq_of_lowercaseChar_eq_cons`), and
blanks and digits stay as they are.
-/

namespace QuantityQuery

variable {c : Char}

theorem isDigit_iff : c.isDigit ↔ 48 ≤ c.toNat ∧ c.toNat ≤ 57 := by
  simp [Char.isDigit, UInt32.le_iff_toNat_le]

theorem isAlpha_iff :
    c.isAlpha ↔ 65 ≤ c.toNat ∧ c.toNat ≤ 90 ∨ 97 ≤ c.toNat ∧ c.toNat ≤ 122 := by
  delta Char.isAlpha Char.isUpper Char.isLower
  simp [UInt32.le_iff_toNat_le]

/-- A character does not lie in two tables without a common code point. -/
theorem inRanges_eq_false {r s : List (Nat × Nat)}
    (h : r.all fun a => s.all fun b => a.2 < b.1 || b.2 < a.1) (hc : inRanges r c) :
    inRanges s c = false := by
  obtain ⟨a, ha, hac⟩ := List.any_eq_true.1 hc
  refine List.any_eq_false.2 fun b hb => ?_
  have := List.all_eq_true.1 (List.all_eq_true.1 h a ha) b hb
  simp only [Bool.and_eq_true, Bool.or_eq_true, decide_eq_true_eq] at hac this ⊢
  omega

/-- Below code point 128, only characters up to the space are blanks. -/
theorem isBlank_eq_false (hspace : 32 < c.toNat) (h : c.toNat < 128) : isBlank c = false := by
  have hne : c ≠ ' ' := by
    rintro rfl
    exact absurd hspace (by decide)
  have hcontrol : ¬ c ≤ '\r' := by
    simp only [Char.le_def, UInt32.le_iff_toNat_le]
    change ¬ c.toNat ≤ 13
    omega
  simp [isBlank, h, hne, hcontrol]

theorem isBlank_of_isAlpha (h : c.isAlpha) : isBlank c = false := by
  have hrange := isAlpha_iff.1 h
  exact isBlank_eq_false (by omega) (by omega)

theorem isBlank_of_isAlphabetic (h : isAlphabetic c) : isBlank c = false := by
  rw [isAlphabetic] at h
  split at h
  case isTrue => exact isBlank_of_isAlpha h
  case isFalse hge =>
    rw [isBlank, if_neg hge]
    exact inRanges_eq_false (by decide +kernel) h

theorem isDigit_of_isAlphabetic (h : isAlphabetic c) : c.isDigit = false := by
  rw [Bool.eq_false_iff]
  intro hdigit
  have hrange := isDigit_iff.1 hdigit
  rw [isAlphabetic, if_pos (by omega)] at h
  have := isAlpha_iff.1 h
  omega

theorem isBlank_of_isDigit (h : c.isDigit) : isBlank c = false := by
  have hrange := isDigit_iff.1 h
  exact isBlank_eq_false (by omega) (by omega)

theorem isAlphanumeric_of_isDigit (h : c.isDigit) : isAlphanumeric c := by
  have hrange := isDigit_iff.1 h
  rw [isAlphanumeric, isNumeric, if_pos (by omega), h, Bool.or_true]

theorem inRanges_of_isBlank (h : isBlank c) : inRanges blankRanges c := by
  rw [isBlank] at h
  split at h
  case isTrue =>
    simp only [Bool.or_eq_true, Bool.and_eq_true, decide_eq_true_eq, Char.le_def,
      UInt32.le_iff_toNat_le] at h
    rcases h with rfl | ⟨hlow, hhigh⟩
    · decide
    · exact List.any_eq_true.2 ⟨(0x9, 0xd), by decide, by simpa using ⟨hlow, hhigh⟩⟩
  case isFalse => exact h

/-! ### Lowercase -/

theorem toNat_ofNat_cases (n : Nat) : (Char.ofNat n).toNat = n ∨ (Char.ofNat n).toNat = 0 := by
  by_cases h : n.isValidChar
  · exact .inl (congrArg Char.toNat (dif_pos h))
  · exact .inr (congrArg Char.toNat (dif_neg h))

/-- The small letters of a run of capital letters are no blanks. -/
theorem CapitalRun.isBlank_smallLetter {run : CapitalRun} (hrun : run ∈ capitalRuns) {d : Char}
    (h : run.smallLetter? c = some d) : isBlank d = false := by
  have htable : capitalRuns.all fun run => blankRanges.all fun b =>
      0 < b.1 && (run.last + run.shift < b.1 || b.2 < run.first + run.shift) := by decide +kernel
  rw [smallLetter?] at h
  split at h
  case isFalse => cases h
  case isTrue hc =>
    obtain rfl := Option.some.inj h
    rw [Bool.eq_false_iff]
    intro hblank
    obtain ⟨b, hb, hin⟩ := List.any_eq_true.1 (inRanges_of_isBlank hblank)
    have hapart := List.all_eq_true.1 (List.all_eq_true.1 htable run hrun) b hb
    simp only [Bool.and_eq_true, Bool.or_eq_true, decide_eq_true_eq] at hin hapart
    rcases toNat_ofNat_cases (c.toNat + run.shift).toNat with h | h <;> rw [h] at hin <;> omega

/-- Only the capital letters of ASCII are moved, to the small ones. -/
theorem toLower_cases (c : Char) :
    c.toLower = c ∨ 65 ≤ c.toNat ∧ c.toNat ≤ 90 ∧ c.toLower.toNat = c.toNat + 32 := by
  delta Char.toLower
  split
  case isTrue hupper =>
    have hlow : 65 ≤ c.toNat := UInt32.le_iff_toNat_le.1 hupper.1
    have hhigh : c.toNat ≤ 90 := UInt32.le_iff_toNat_le.1 hupper.2
    have hlt : c.toNat + 32 < 2 ^ 32 := by omega
    exact .inr ⟨hlow, hhigh, (UInt32.toNat_add ..).trans (Nat.mod_eq_of_lt hlt)⟩
  case isFalse => exact .inl rfl

theorem isBlank_toLower (h : isBlank c = false) : isBlank c.toLower = false := by
  rcases toLower_cases c with heq | ⟨hlow, hhigh, hsmall⟩
  · rw [heq, h]
  · exact isBlank_eq_false (by omega) (by omega)

/-- What is no blank does not become one in lowercase. -/
theorem isBlank_lowercaseChar (h : isBlank c = false) :
    ∃ d rest, lowercaseChar c = d :: rest ∧ isBlank d = false := by
  rw [lowercaseChar]
  split
  · exact ⟨_, [], rfl, isBlank_toLower h⟩
  · split
    · exact ⟨'i', ['\u0307'], rfl, by decide⟩
    · cases hrun : capitalRuns.findSome? fun run => run.smallLetter? c with
      | none => exact ⟨c, [], rfl, h⟩
      | some d =>
        obtain ⟨run, hmem, hd⟩ := List.exists_of_findSome?_eq_some hrun
        exact ⟨d, [], rfl, CapitalRun.isBlank_smallLetter hmem hd⟩

theorem toLower_eq_self (h : c.toNat < 65) : c.toLower = c :=
  (toLower_cases c).resolve_right fun ⟨hlow, _⟩ => absurd h (Nat.not_lt.2 hlow)

theorem lowercaseChar_of_isDigit (h : c.isDigit) : lowercaseChar c = [c] := by
  have hrange := isDigit_iff.1 h
  rw [lowercaseChar, if_pos (by omega), toLower_eq_self (by omega)]

/-- No blank is a capital letter of a run. -/
theorem CapitalRun.smallLetter?_of_isBlank {run : CapitalRun} (hrun : run ∈ capitalRuns)
    (h : isBlank c) : run.smallLetter? c = none := by
  have htable : capitalRuns.all fun run => blankRanges.all fun b =>
      run.last < b.1 || b.2 < run.first := by decide +kernel
  obtain ⟨b, hb, hin⟩ := List.any_eq_true.1 (inRanges_of_isBlank h)
  have hapart := List.all_eq_true.1 (List.all_eq_true.1 htable run hrun) b hb
  simp only [Bool.and_eq_true, Bool.or_eq_true, decide_eq_true_eq] at hin hapart
  exact if_neg fun hc => by omega

theorem lowercaseChar_of_isBlank (h : isBlank c) : lowercaseChar c = [c] := by
  rw [lowercaseChar]
  split
  case isTrue hlt =>
    have hle : c.toNat ≤ 32 := Nat.le_of_not_lt fun hgt => by
      rw [isBlank_eq_false hgt hlt] at h
      cases h
    rw [toLower_eq_self (by omega)]
  case isFalse =>
    have hne : c ≠ 'İ' := by
      rintro rfl
      exact absurd h (by decide)
    have hnone : (capitalRuns.findSome? fun run => run.smallLetter? c) = none :=
      List.findSome?_eq_none_iff.2 fun run hrun => run.smallLetter?_of_isBlank hrun h
    rw [if_neg hne, hnone, Option.getD_none]

/-- The small letters of a run are all letters. -/
theorem CapitalRun.le_smallLetter {run : CapitalRun} (hrun : run ∈ capitalRuns) {d : Char}
    (h : run.smallLetter? c = some d) : d.toNat = 0 ∨ 65 ≤ d.toNat := by
  have htable : capitalRuns.all fun run => 65 ≤ run.first + run.shift := by decide +kernel
  rw [smallLetter?] at h
  split at h
  case isFalse => cases h
  case isTrue hc =>
    obtain rfl := Option.some.inj h
    have hlow := of_decide_eq_true (List.all_eq_true.1 htable run hrun)
    rcases toNat_ofNat_cases (c.toNat + run.shift).toNat with h | h <;> rw [h] <;> omega

/-- Only a character itself becomes a digit, or a sign before the letters, in lowercase. -/
theorem eq_of_lowercaseChar_eq_cons {d : Char} {rest : List Char}
    (h : lowercaseChar c = d :: rest) (hpos : 0 < d.toNat) (hlt : d.toNat < 65) :
    c = d ∧ rest = [] := by
  rw [lowercaseChar] at h
  split at h
  · obtain ⟨rfl, rfl⟩ := List.cons.inj h
    rcases toLower_cases c with heq | ⟨hlow, -, hsmall⟩
    · exact ⟨heq.symm, rfl⟩
    · omega
  · split at h
    · obtain ⟨rfl, -⟩ := List.cons.inj h
      exact absurd hlt (by decide)
    · obtain ⟨hd, hrest⟩ := List.cons.inj h
      refine ⟨?_, hrest.symm⟩
      cases hrun : capitalRuns.findSome? fun run => run.smallLetter? c with
      | none => rw [hrun] at hd; exact hd
      | some e =>
        rw [hrun, Option.getD_some] at hd
        obtain ⟨run, hmem, he⟩ := List.exists_of_findSome?_eq_some hrun
        rcases run.le_smallLetter hmem he with h0 | h65
        · rw [← hd, h0] at hpos
          exact absurd hpos (Nat.lt_irrefl _)
        · rw [← hd] at hlt
          omega

end QuantityQuery
