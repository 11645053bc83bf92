import QuantityQuery.Proofs.Query.Lexeme

/-!
# Texts inside other texts

A text that is read to its end is read in the same way inside a larger text, wherever it
stands there, if a character comes after it that is in no word. Nothing in a text looks
beyond such a character, and a quote that is open at the end of a text is a fault.

* `FallsInto`: the tokens that a text falls into, one after the other.
-/

namespace QuantityQuery

variable {c d mark : Char} {position size : Nat} {text rest : List Char} {token : Token}
  {ts us : List Token}

/-! ### Tokens end before a character that is in no word -/

namespace Token

section

variable (hd : isTermChar d = false) (text rest : List Char)
include hd

theorem goesOnNumeric_of_not_isTermChar : goesOnNumeric d = false :=
  Bool.eq_false_iff.2 fun h => Bool.eq_false_iff.1 hd (isTermChar_of_goesOnNumeric h)

theorem isDigit_of_not_isTermChar : d.isDigit = false := by
  have h := goesOnNumeric_of_not_isTermChar hd
  simp only [goesOnNumeric, Bool.or_eq_false_iff] at h
  exact h.1.1.1.1

theorem spanNumeric_append_cons (pointed : Bool) :
    spanNumeric pointed (text ++ d :: rest) = spanNumeric pointed text := by
  induction text generalizing pointed with
  | nil =>
    exact spanNumeric_append (List.forall_mem_nil _)
      (stops_cons.2 (goesOnNumeric_of_not_isTermChar hd))
  | cons c text ih =>
    -- The character looked at after `c` is one of the text, or else is no digit.
    have hbefore : (text ++ d :: rest).head?.any Char.isDigit = text.head?.any Char.isDigit := by
      cases text with
      | nil => exact isDigit_of_not_isTermChar hd
      | cons => rfl
    rw [List.cons_append, spanNumeric, spanNumeric, hbefore, ih, ih]

theorem spanBoost_append_cons : spanBoost (text ++ d :: rest) = spanBoost text := by
  have hdigit := isDigit_of_not_isTermChar hd
  simp only [spanBoost, spanDigits, takeWhile_append_cons hdigit, dropWhile_append_cons hdigit]
  rcases text.dropWhile Char.isDigit with _ | ⟨c, more⟩
  · have hpoint : d ≠ '.' := by
      rintro rfl
      exact absurd hd (by decide)
    simp [hpoint]
  · by_cases hpoint : c = '.'
    · subst hpoint
      simp only [List.cons_append, takeWhile_append_cons hdigit]
    · simp [hpoint]

end

theorem readQuoted_append {out : List Char × Nat} (h : readQuoted mark text = some out)
    (rest : List Char) : readQuoted mark (text ++ rest) = some out := by
  fun_induction readQuoted mark text generalizing out with
  | case1 => cases h
  | case2 =>
    cases h
    exact readQuoted_closing mark rest
  | case3 => cases h
  | case4 d more =>
    cases h
    exact readQuoted_closing mark (d :: more ++ rest)
  | case5 d more hmark ih =>
    obtain ⟨inner, hinner, rfl⟩ := Option.map_eq_some_iff.1 h
    rw [List.cons_append, List.cons_append, readQuoted_backslash hmark, ih hinner]
    rfl
  | case6 c d more hmark hescape ih =>
    obtain ⟨inner, hinner, rfl⟩ := Option.map_eq_some_iff.1 h
    rw [List.cons_append, readQuoted_char hmark hescape, ih hinner]
    rfl

/-- A token depends on the spans that the text after its first character begins with, and on
    nothing else. -/
theorem read_congr {text' : List Char} (position' : Nat)
    (hdigits : text'.takeWhile Char.isDigit = text.takeWhile Char.isDigit)
    (hboost : spanBoost text' = spanBoost text)
    (hquoted : ∀ out, readQuoted c text = some out → readQuoted c text' = some out)
    (hnumeric : spanNumeric false text' = spanNumeric false text)
    (hterm : text'.takeWhile isTermChar = text.takeWhile isTermChar)
    (h : Token.read position c text = .ok (token, size)) :
    Token.read position' c text' = .ok (token, size) := by
  unfold Token.read at h ⊢
  rw [hdigits, hboost, hnumeric, hterm]
  split at h
  case h_1 => exact h
  case h_2 =>
    split_ifs at h ⊢ with htilde hcaret hquote hdigit hstart
    · exact h
    · exact h
    · cases hread : readQuoted c text with
      | none =>
        rw [hread] at h
        cases h
      | some out => rwa [hquoted out hread, ← hread]
    · exact h
    · exact h

/-- A token does not depend on its position. -/
theorem read_at (position' : Nat) (h : Token.read position c text = .ok (token, size)) :
    Token.read position' c text = .ok (token, size) :=
  read_congr position' rfl rfl (fun _ => id) rfl rfl h

/-- A token does not depend on what stands after a character that is in no word. -/
theorem read_append_cons (hd : isTermChar d = false) (rest : List Char)
    (h : Token.read position c text = .ok (token, size)) :
    Token.read position c (text ++ d :: rest) = .ok (token, size) :=
  read_congr position (takeWhile_append_cons (isDigit_of_not_isTermChar hd) text rest)
    (spanBoost_append_cons hd text rest) (fun _ hread => readQuoted_append hread _)
    (spanNumeric_append_cons hd text rest false) (takeWhile_append_cons hd text rest) h

end Token

/-! ### Texts that fall into tokens -/

/-- A text falls into tokens, one after the other, with blanks anywhere between them. -/
inductive FallsInto : List Char → List Token → Prop
  | nil : FallsInto [] []
  | blank {c : Char} {rest : List Char} {ts : List Token} : isBlank c → FallsInto rest ts →
      FallsInto (c :: rest) ts
  | token {c : Char} {text : List Char} {size : Nat} {token : Token} {ts : List Token} :
      isBlank c = false → (∀ position, Token.read position c text = .ok (token, size)) →
      FallsInto (text.drop size) ts → FallsInto (c :: text) (token :: ts)

theorem FallsInto.blanks {blanks : List Char} (hblanks : ∀ c ∈ blanks, isBlank c)
    (h : FallsInto rest ts) : FallsInto (blanks ++ rest) ts := by
  induction blanks with
  | nil => exact h
  | cons c blanks ih =>
    obtain ⟨hc, hblanks⟩ := List.forall_mem_cons.1 hblanks
    exact .blank hc (ih hblanks)

/-- A text that is read without fault falls into the tokens that were read. -/
theorem fallsInto_of_fault_eq_none (h : (Reading.readFrom position text).fault = none) :
    FallsInto text (Reading.readFrom position text).tokens := by
  fun_induction Reading.readFrom position text with
  | case1 position text hblank =>
    have hblanks := List.dropWhile_eq_nil_iff.1 hblank
    rw [← List.append_nil text]
    exact .blanks hblanks .nil
  | case2 => cases h
  | case3 position text c rest hcons blanks start token size hread _ reading ih =>
    have hblank : isBlank c = false := stops_cons.1 (hcons ▸ stops_dropWhile isBlank text)
    rw [← List.takeWhile_append_dropWhile (p := isBlank) (l := text), hcons]
    exact .blanks (fun _ => List.mem_takeWhile_imp)
      (.token hblank (fun position => Token.read_at position hread) (ih h))

/-- The first token of a text is the one that is read. -/
theorem fallsInto_cons_iff (hc : isBlank c = false)
    (hread : ∀ position, Token.read position c text = .ok (token, size)) :
    FallsInto (c :: text) ts ↔ ∃ us, ts = token :: us ∧ FallsInto (text.drop size) us := by
  constructor
  · intro h
    cases h with
    | blank hblank => rw [hc] at hblank; cases hblank
    | token _ hread' hrest =>
      cases (hread 0).symm.trans (hread' 0)
      exact ⟨_, rfl, hrest⟩
  · rintro ⟨us, rfl, hrest⟩
    exact .token hc hread hrest

theorem not_fallsInto_cons {fault : QueryError} (hc : isBlank c = false)
    (hread : Token.read 0 c text = .error fault) : ¬ FallsInto (c :: text) ts := by
  intro h
  cases h with
  | blank hblank => rw [hc] at hblank; cases hblank
  | token _ hread' => cases hread.symm.trans (hread' 0)

/-- Inside a larger text, before a character that is in no word, a text has the same tokens. -/
theorem FallsInto.append (htext : FallsInto text ts) (hd : isTermChar d = false)
    (hrest : FallsInto (d :: rest) us) : FallsInto (text ++ d :: rest) (ts ++ us) := by
  induction htext with
  | nil => exact hrest
  | blank hc _ ih => exact .blank hc ih
  | token hc hread _ ih =>
    rw [← List.drop_append_of_le_length (Token.size_le_of_read (hread 0))] at ih
    exact .token hc (fun position => Token.read_append_cons hd rest (hread position)) ih

theorem FallsInto.lexes (h : FallsInto text ts) : Lexes text ts := by
  induction h with
  | nil => exact .nil
  | blank hc _ ih => exact .blank hc ih
  | @token c text size token ts hc hread _ ih =>
    have hsize := Token.size_le_of_read (hread 0)
    rw [← List.take_append_drop size text]
    refine .cons hc (fun position => ?_) ih
    rw [List.take_append_drop, hread, List.length_take, Nat.min_eq_left hsize]

/-- A text is read as the tokens that it falls into. -/
theorem lexes_iff : Lexes text ts ↔ FallsInto text ts :=
  ⟨fun h => h.tokens_eq 0 ▸ fallsInto_of_fault_eq_none (h.fault_eq 0), FallsInto.lexes⟩

/-- A text is read to its end as the tokens that it falls into. -/
theorem Reading.ofText_iff {text : String} {ts : List Token} :
    (ofText text).fault = none ∧ (ofText text).tokens = ts ↔ FallsInto text.toList ts := by
  constructor
  · rintro ⟨hfault, rfl⟩
    exact fallsInto_of_fault_eq_none hfault
  · intro h
    exact ⟨h.lexes.fault_eq 0, h.lexes.tokens_eq 0⟩

end QuantityQuery
