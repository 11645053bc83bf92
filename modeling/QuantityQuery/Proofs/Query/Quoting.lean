import Mathlib.Algebra.Ring.Parity
import Mathlib.Data.List.DropRight
import Mathlib.Tactic.TFAE
import QuantityQuery.Proofs.Query.Lexeme
import QuantityQuery.Query.Lexer

/-!
# Texts between quotes

Every text can be written between quotes of either kind, with a backslash before each backslash
and before each quote of that kind (`Token.escape`). It is read back as it was, and the lexer
stands right behind the closing quote, whatever follows it (`Lexer.next_escape`).

A quote closes the text exactly if it is not escaped, that is if the number of backslashes
before it is even (`Token.endsInEscape_iff_odd`). A text without such a quote is refused, and
nothing else that follows an opening quote is (`Lexer.next_tfae`).

* `Token.escape`: a text as it is written between quotes;
* `Token.endsInEscape`: a text after which the next character is escaped.
-/

namespace QuantityQuery

variable {c mark : Char} {text inner : List Char}

namespace Token

/-! ### Quotes -/

theorem backslash_ne (hmark : mark = '"' ∨ mark = '\'') : '\\' ≠ mark := by
  rcases hmark with rfl | rfl <;> decide

/-- What begins with a quote is read as a text between quotes. -/
theorem read_quote (hmark : mark = '"' ∨ mark = '\'') (position : Nat) (text : List Char) :
    Token.read position mark text =
      match readQuoted mark text with
      | none => .error .unterminated
      | some (content, size) => .ok (quoted (String.ofList content), size) := by
  rcases hmark with rfl | rfl <;> rfl

/-! ### Writing -/

/-- A character as it is written between quotes: behind a backslash, if it is such a quote or a
    backslash itself. -/
def escapeChar (mark c : Char) : List Char := if c = mark ∨ c = '\\' then ['\\', c] else [c]

/-- A text as it is written between quotes. -/
def escape (mark : Char) (text : List Char) : List Char := text.flatMap (escapeChar mark)

theorem quotedAs_escape (mark : Char) (text : List Char) :
    QuotedAs mark text (escape mark text) := by
  induction text with
  | nil => exact .nil
  | cons c text ih =>
    by_cases hc : c = mark ∨ c = '\\'
    · have hchar : escapeChar mark c = ['\\', c] := if_pos hc
      have hunescape : unescape mark c = [c] := if_pos hc
      have hquoted := QuotedAs.escape (d := c) ih
      rw [hunescape] at hquoted
      rwa [escape, List.flatMap_cons, hchar]
    · have hchar : escapeChar mark c = [c] := if_neg hc
      obtain ⟨hmark, hslash⟩ := not_or.1 hc
      rw [escape, List.flatMap_cons, hchar]
      exact .char hmark hslash ih

/-- What is written between quotes is read up to the closing one, whatever follows it. -/
theorem QuotedAs.readQuoted_eq (hmark : '\\' ≠ mark) (h : QuotedAs mark text inner)
    (rest : List Char) :
    readQuoted mark (inner ++ mark :: rest) = some (text, inner.length + 1) := by
  induction h with
  | nil => exact readQuoted_closing mark rest
  | char hc hslash _ ih =>
    rw [List.cons_append, readQuoted_char hc hslash, ih]
    rfl
  | escape _ ih =>
    rw [List.cons_append, List.cons_append, readQuoted_backslash hmark, ih]
    rfl

/-! ### Escapes -/

/-- Whether a text ends with a backslash that takes the character after the text with it. A
    backslash that is taken by the one before it takes none. -/
def endsInEscape (text : List Char) : Bool :=
  text.foldl (fun escaped c => !escaped && c = '\\') false

theorem endsInEscape_cons (hc : c ≠ '\\') (text : List Char) :
    endsInEscape (c :: text) = endsInEscape text := by
  simp [endsInEscape, hc]

theorem endsInEscape_backslash (d : Char) (text : List Char) :
    endsInEscape ('\\' :: d :: text) = endsInEscape text := rfl

theorem endsInEscape_concat (text : List Char) (c : Char) :
    endsInEscape (text ++ [c]) = (!endsInEscape text && c = '\\') := by
  simp [endsInEscape]

/-- The backslashes at the end of a text escape each other, two by two. -/
theorem endsInEscape_iff_odd (text : List Char) :
    endsInEscape text ↔ Odd (text.rtakeWhile (· = '\\')).length := by
  induction text using List.reverseRecOn with
  | nil => simp [endsInEscape]
  | append_singleton text c ih =>
    rw [endsInEscape_concat]
    by_cases hc : c = '\\'
    · rw [List.rtakeWhile_concat_pos _ _ _ (by simpa using hc), List.length_append,
        List.length_singleton, Nat.odd_add_one, ← ih]
      simp [hc]
    · rw [List.rtakeWhile_concat_neg _ _ _ (by simpa using hc)]
      simp [hc]

theorem QuotedAs.endsInEscape_eq_false (h : QuotedAs mark text inner) :
    endsInEscape inner = false := by
  induction h with
  | nil => rfl
  | char _ hslash _ ih => rwa [endsInEscape_cons hslash]
  | escape _ ih => rwa [endsInEscape_backslash]

/-- A text with a quote that is not escaped is closed, by that quote or one before it. -/
theorem exists_readQuoted (hmark : '\\' ≠ mark) (after : List Char) :
    ∀ before, endsInEscape before = false →
      ∃ out, readQuoted mark (before ++ mark :: after) = some out
  | [], _ => ⟨_, readQuoted_closing mark after⟩
  | c :: before, h => by
    by_cases hslash : c = '\\'
    · -- An escape is skipped as a whole; the backslash is not the last character before the quote.
      subst hslash
      match before, h with
      | d :: before, h =>
        obtain ⟨out, hout⟩ := exists_readQuoted hmark after before h
        rw [List.cons_append, List.cons_append, readQuoted_backslash hmark, hout]
        exact ⟨_, rfl⟩
    · by_cases hc : c = mark
      · rw [hc]
        exact ⟨_, readQuoted_closing mark (before ++ mark :: after)⟩
      · rw [endsInEscape_cons hslash] at h
        obtain ⟨out, hout⟩ := exists_readQuoted hmark after before h
        rw [List.cons_append, readQuoted_char hc hslash, hout]
        exact ⟨_, rfl⟩

/-- A text is open exactly if all its quotes are escaped. -/
theorem readQuoted_eq_none_iff (hmark : '\\' ≠ mark) :
    readQuoted mark text = none ↔
      ∀ before after, text = before ++ mark :: after → endsInEscape before := by
  constructor
  · rintro hnone before after rfl
    by_contra h
    obtain ⟨out, hout⟩ := exists_readQuoted hmark after before (Bool.eq_false_iff.2 h)
    rw [hnone] at hout
    cases hout
  · intro hescaped
    rw [Option.eq_none_iff_forall_ne_some]
    intro out hout
    obtain ⟨inner, rest, htext, -, hquoted⟩ := exists_of_readQuoted hout
    have := hescaped inner rest htext
    rw [hquoted.endsInEscape_eq_false] at this
    cases this

end Token

/-! ### A lexer before a quote -/

namespace Lexer

section

variable (hmark : mark = '"' ∨ mark = '\'') (position : Nat)
include hmark

/-- A lexer before a quote goes behind the closing one, or to the end of an open text. -/
theorem next_quote (text : List Char) :
    next ⟨position, mark :: text⟩ =
      match Token.readQuoted mark text with
      | none => (.error .unterminated, ⟨position + 1 + text.length, []⟩)
      | some (content, size) =>
        (.ok (some (.quoted (String.ofList content))), ⟨position + 1 + size, text.drop size⟩) := by
  have hblank : isBlank mark = false := by
    rcases hmark with rfl | rfl <;> decide
  have hdrop : (mark :: text).dropWhile isBlank = mark :: text :=
    List.dropWhile_cons_of_neg (by simp [hblank])
  have htake : (mark :: text).takeWhile isBlank = [] :=
    List.takeWhile_cons_of_neg (by simp [hblank])
  simp only [next, hdrop, htake, Token.read_quote hmark]
  cases Token.readQuoted mark text <;> rfl

/-- A text that is written between quotes is read as it was. -/
theorem next_escape (s : String) (rest : List Char) :
    next ⟨position, mark :: (Token.escape mark s.toList ++ mark :: rest)⟩ =
      (.ok (some (.quoted s)),
        ⟨position + (Token.escape mark s.toList).length + 2, rest⟩) := by
  have hquoted := Token.quotedAs_escape mark s.toList
  rw [next_quote hmark, hquoted.readQuoted_eq (Token.backslash_ne hmark) rest]
  have hdrop : (Token.escape mark s.toList ++ mark :: rest).drop
      ((Token.escape mark s.toList).length + 1) = rest := by
    rw [← List.drop_drop, List.drop_left]
    rfl
  have hposition : position + 1 + ((Token.escape mark s.toList).length + 1) =
      position + (Token.escape mark s.toList).length + 2 := by
    omega
  simp only [String.ofList_toList, hdrop, hposition]

/-- There is a fault behind an opening quote; it is that the text is open up to its end; all
    quotes in the text are escaped; all stand behind an odd number of backslashes. -/
theorem next_tfae (text : List Char) :
    [∃ fault, (next ⟨position, mark :: text⟩).1 = .error fault,
      next ⟨position, mark :: text⟩ = (.error .unterminated, ⟨position + 1 + text.length, []⟩),
      ∀ before after, text = before ++ mark :: after → Token.endsInEscape before,
      ∀ before after, text = before ++ mark :: after →
        Odd (before.rtakeWhile (· = '\\')).length].TFAE := by
  have hopen : Token.readQuoted mark text = none ↔ _ :=
    Token.readQuoted_eq_none_iff (Token.backslash_ne hmark)
  rw [next_quote hmark]
  tfae_have 2 → 1 := fun h => ⟨.unterminated, by rw [h]⟩
  tfae_have 1 → 3 := by
    rintro ⟨fault, hfault⟩
    rw [← hopen]
    cases hread : Token.readQuoted mark text with
    | none => rfl
    | some out =>
      rw [hread] at hfault
      cases hfault
  tfae_have 3 → 2 := fun hescaped => by rw [hopen.2 hescaped]
  tfae_have 3 ↔ 4 := by simp only [Token.endsInEscape_iff_odd]
  tfae_finish

end

/-- Every text can be written between quotes of either kind, and is then read as it was, whatever
    follows the closing quote. What follows an opening quote is refused exactly if it has no
    quote outside of an escape, that is none behind an even number of backslashes. -/
theorem next_quoted (hmark : mark = '"' ∨ mark = '\'') (position : Nat) :
    (∀ (s : String) (rest : List Char),
      next ⟨position, mark :: (Token.escape mark s.toList ++ mark :: rest)⟩ =
        (.ok (some (.quoted s)),
          ⟨position + (Token.escape mark s.toList).length + 2, rest⟩)) ∧
      ∀ text : List Char,
        [∃ fault, (next ⟨position, mark :: text⟩).1 = .error fault,
          next ⟨position, mark :: text⟩ = (.error .unterminated, ⟨position + 1 + text.length, []⟩),
          ∀ before after, text = before ++ mark :: after → Token.endsInEscape before,
          ∀ before after, text = before ++ mark :: after →
            Odd (before.rtakeWhile (· = '\\')).length].TFAE :=
  ⟨next_escape hmark position, next_tfae hmark position⟩

/-- Both kinds of quotes, and backslashes before the last quote: two of them, or three. -/
theorem next_quoted_inches :
    next ⟨0, "'5\" isn\\'t 5\\\\' TO".toList⟩ =
        (.ok (some (.quoted "5\" isn't 5\\")), ⟨15, " TO".toList⟩) ∧
      next ⟨0, "'5\" isn\\'t 5\\\\\\' TO".toList⟩ = (.error .unterminated, ⟨19, []⟩) := by
  obtain ⟨hclosed, hopen⟩ := @next_quoted '\'' (.inr rfl) 0
  have hend := (hopen "5\" isn\\'t 5\\\\\\' TO".toList).out 0 1
  exact ⟨hclosed "5\" isn't 5\\" " TO".toList, hend.1 ⟨.unterminated, by decide +kernel⟩⟩

end Lexer

end QuantityQuery
