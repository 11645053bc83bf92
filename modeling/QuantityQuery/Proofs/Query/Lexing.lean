import QuantityQuery.Catalogue.Field
import QuantityQuery.Catalogue.Unit
import QuantityQuery.Proofs.Number.Numeral
import QuantityQuery.Proofs.Text.Character
import QuantityQuery.Query.Lexeme

/-!
# Reading the tokens of a text

What a text is read as, whatever its position (`Lexes`), put together from its front:
a blank changes nothing, and a token with its characters comes before the tokens of
what follows, if what follows does not go on with the token.

* `Lexes.punctuation`, `Lexes.name`, `Lexes.digits`, `Lexes.boost`: the tokens that
  expressions for quantities are made of.
-/

namespace QuantityQuery

/-- The text is read to its end as the given tokens, wherever it stands. -/
structure Lexes (text : List Char) (tokens : List Token) : Prop where
  tokens_eq : ∀ position, (Reading.readFrom position text).tokens = tokens
  fault_eq : ∀ position, (Reading.readFrom position text).fault = none

namespace Lexes

variable {c : Char} {more rest : List Char} {token : Token} {ts : List Token}

theorem nil : Lexes [] [] := by
  constructor <;> intro position <;> rw [Reading.readFrom] <;> rfl

/-- Blanks before tokens are skipped. -/
theorem blank (hc : isBlank c) (h : Lexes rest ts) : Lexes (c :: rest) ts := by
  have hdrop : (c :: rest).dropWhile isBlank = rest.dropWhile isBlank :=
    List.dropWhile_cons_of_pos hc
  have htake : (c :: rest).takeWhile isBlank = c :: rest.takeWhile isBlank :=
    List.takeWhile_cons_of_pos hc
  -- All blanks are dropped at once, so the reading goes on at the same place from both texts.
  have hsame : ∀ position,
      (Reading.readFrom position (c :: rest)).tokens =
        (Reading.readFrom (position + 1) rest).tokens ∧
      (Reading.readFrom position (c :: rest)).fault =
        (Reading.readFrom (position + 1) rest).fault := by
    intro position
    rw [Reading.readFrom, Reading.readFrom]
    split
    case h_1 hnil =>
      rw [hdrop] at hnil
      split
      case h_1 => exact ⟨rfl, rfl⟩
      case h_2 hcons => rw [hnil] at hcons; cases hcons
    case h_2 d tail hcons =>
      rw [hdrop] at hcons
      split
      case h_1 hnil => rw [hcons] at hnil; cases hnil
      case h_2 e tail' hcons' =>
        obtain ⟨rfl, rfl⟩ := List.cons.inj (hcons.symm.trans hcons')
        have hstart : position + ((c :: rest).takeWhile isBlank).length =
            position + 1 + (rest.takeWhile isBlank).length := by
          rw [htake, List.length_cons]
          omega
        simp only [hstart]
        cases Token.read (position + 1 + (rest.takeWhile isBlank).length) d tail with
        | error => exact ⟨rfl, rfl⟩
        | ok => exact ⟨rfl, rfl⟩
  exact ⟨fun p => (hsame p).1.trans (h.tokens_eq _), fun p => (hsame p).2.trans (h.fault_eq _)⟩

/-- A token and the characters after its first one, before a text that is read. -/
theorem cons (hc : isBlank c = false)
    (hread : ∀ position, Token.read position c (more ++ rest) = .ok (token, more.length))
    (h : Lexes rest ts) : Lexes (c :: (more ++ rest)) (token :: ts) := by
  have hdrop : (c :: (more ++ rest)).dropWhile isBlank = c :: (more ++ rest) :=
    List.dropWhile_cons_of_neg (by simp [hc])
  have hstep : ∀ position,
      (Reading.readFrom position (c :: (more ++ rest))).tokens = token :: ts ∧
      (Reading.readFrom position (c :: (more ++ rest))).fault = none := by
    intro position
    rw [Reading.readFrom]
    split
    case h_1 hnil => rw [hdrop] at hnil; cases hnil
    case h_2 d tail hcons =>
      obtain ⟨rfl, rfl⟩ := List.cons.inj (hdrop.symm.trans hcons)
      simp only [hread, List.drop_left]
      exact ⟨congrArg (token :: ·) (h.tokens_eq _), h.fault_eq _⟩
  exact ⟨fun p => (hstep p).1, fun p => (hstep p).2⟩

end Lexes

/-! ### The tokens that begin with a character -/

namespace Token

variable {c : Char} {position : Nat} {more rest : List Char}

/-- The characters that names of fields begin with. -/
def isNameStart (c : Char) : Bool := isAlphabetic c || c = '_'

theorem isBlank_of_isNameStart (hc : isNameStart c) : isBlank c = false := by
  rw [isNameStart, Bool.or_eq_true, decide_eq_true_eq] at hc
  rcases hc with hc | rfl
  · exact isBlank_of_isAlphabetic hc
  · decide

theorem isDigit_of_isNameStart (hc : isNameStart c) : c.isDigit = false := by
  rw [isNameStart, Bool.or_eq_true, decide_eq_true_eq] at hc
  rcases hc with hc | rfl
  · exact isDigit_of_isAlphabetic hc
  · decide

/-- The punctuation marks. -/
def marks : List Char := [':', '*', '[', ']', '\x7b', '\x7d', '(', ')', '+', '-']

/-- A character of a class without the marks is none of the marks. -/
theorem punctuation?_eq_none {p : Char → Bool} (hc : p c) (hmarks : marks.any p = false) :
    punctuation? c = none := by
  have hne : ∀ d ∈ marks, c ≠ d := fun d hd =>
    ne_of_class hc (Bool.eq_false_iff.2 (List.any_eq_false.1 hmarks d hd))
  unfold punctuation?
  split <;> first | rfl | exact absurd rfl (hne _ (by decide))

/-- A word is read as far as its characters go. -/
theorem read_name (hc : isNameStart c) (hmore : ∀ d ∈ more, isTermChar d)
    (hrest : Stops isTermChar rest) :
    Token.read position c (more ++ rest) = .ok (ofWord (c :: more), more.length) := by
  have hstart : isTermStart c := by
    rw [isNameStart, Bool.or_eq_true, decide_eq_true_eq] at hc
    rcases hc with hc | rfl
    · simp [isTermStart, isAlphanumeric, hc]
    · decide
  have hquote : ¬ (c = '"' ∨ c = '\'') :=
    not_or.2 ⟨ne_of_class hc (by decide), ne_of_class hc (by decide)⟩
  rw [Token.read, punctuation?_eq_none hc rfl,
    if_neg (ne_of_class hc (by decide)), if_neg (ne_of_class hc (by decide)),
    if_neg hquote, if_neg (by simp [isDigit_of_isNameStart hc]), if_pos hstart,
    takeWhile_append_of_stops hmore hrest]

/-- The characters that can go on a word or number which began with a digit. -/
def goesOnNumeric (c : Char) : Bool :=
  c.isDigit || c = '_' || isAlphabetic c || c = '-' || c = '.'

theorem spanNumeric_append {pointed : Bool}
    (hmore : ∀ c ∈ more, c.isDigit || c = '_' || isAlphabetic c)
    (hrest : Stops goesOnNumeric rest) : spanNumeric pointed (more ++ rest) = more := by
  induction more with
  | nil =>
    cases rest with
    | nil => rfl
    | cons c rest =>
      have hstop := stops_cons.1 hrest
      simp only [goesOnNumeric, Bool.or_eq_false_iff, decide_eq_false_iff_not] at hstop
      obtain ⟨⟨⟨⟨hdigit, hline⟩, hletter⟩, hhyphen⟩, hpoint⟩ := hstop
      simp [spanNumeric, hdigit, hline, hletter, hhyphen, hpoint]
  | cons c more ih =>
    obtain ⟨hc, hmore⟩ := List.forall_mem_cons.1 hmore
    rw [List.cons_append, spanNumeric, if_pos (by rw [hc, Bool.true_or]), ih hmore]

/-- What begins with a digit is read as far as it goes on. -/
theorem read_of_isDigit (hc : c.isDigit) :
    Token.read position c rest =
      .ok (ofNumeric (c :: spanNumeric false rest), (spanNumeric false rest).length) := by
  have hquote : ¬ (c = '"' ∨ c = '\'') :=
    not_or.2 ⟨ne_of_class hc (by decide), ne_of_class hc (by decide)⟩
  rw [Token.read, punctuation?_eq_none hc rfl, if_neg (ne_of_class hc (by decide)),
    if_neg (ne_of_class hc (by decide)), if_neg hquote, if_pos hc]

/-- A digit, and letters and digits after it, are read together. -/
theorem read_numeric (hc : c.isDigit) (hmore : ∀ d ∈ more, d.isDigit || d = '_' || isAlphabetic d)
    (hrest : Stops goesOnNumeric rest) :
    Token.read position c (more ++ rest) = .ok (ofNumeric (c :: more), more.length) := by
  rw [read_of_isDigit hc, spanNumeric_append hmore hrest]

/-- Digits are read as a number. -/
theorem read_digits (hd : ∀ d ∈ c :: more, d.isDigit) (hrest : Stops goesOnNumeric rest) :
    Token.read position c (more ++ rest) =
      .ok (number ((readBinary? _ (c :: more)).getD .nan), more.length) := by
  have hnumber : ofNumeric (c :: more) = number ((readBinary? _ (c :: more)).getD .nan) :=
    if_pos (List.all_eq_true.2 fun d hd' => by simp [hd d hd'])
  obtain ⟨hc, hmore⟩ := List.forall_mem_cons.1 hd
  rw [read_numeric hc (fun d hd => by simp [hmore d hd]) hrest, hnumber]

/-! ### Boosts -/

/-- A plain decimal is written with digits, or with digits on both sides of a point. -/
theorem isPlainDecimal_cases {text : List Char} (h : isPlainDecimal text) :
    IsDigits text ∨
      ∃ whole fraction, IsDigits whole ∧ IsDigits fraction ∧ text = whole ++ '.' :: fraction := by
  simp only [isPlainDecimal, Bool.and_eq_true, Bool.not_eq_true', List.isEmpty_eq_false_iff,
    List.all_eq_true, Bool.or_eq_true, decide_eq_true_eq, bne_iff_ne] at h
  obtain ⟨⟨⟨⟨hne, hall⟩, hcount⟩, hhead⟩, hlast⟩ := h
  by_cases hpoint : '.' ∈ text
  · -- There is one point at most, neither first nor last, so digits are on both of its sides.
    right
    obtain ⟨whole, fraction, rfl, hwhole⟩ := List.eq_append_cons_of_mem hpoint
    have hfraction : '.' ∉ fraction := by
      rw [List.count_append, List.count_cons_self, List.count_eq_zero.2 hwhole] at hcount
      exact List.count_eq_zero.1 (by omega)
    refine ⟨whole, fraction, ⟨?_, fun c hc => ?_⟩, ⟨?_, fun c hc => ?_⟩, rfl⟩
    · rintro rfl
      exact hhead rfl
    · exact (hall c (by simp [hc])).resolve_right fun h => hwhole (h ▸ hc)
    · rintro rfl
      exact hlast (by simp)
    · exact (hall c (by simp [hc])).resolve_right fun h => hfraction (h ▸ hc)
  · exact .inl ⟨hne, fun c hc => (hall c hc).resolve_right fun h => hpoint (h ▸ hc)⟩

theorem spanBoost_append {text : List Char} (h : isPlainDecimal text)
    (hrest : Stops (fun c => c.isDigit || c = '.') rest) : spanBoost (text ++ rest) = text := by
  have hdigit : Stops Char.isDigit rest := fun c hc => by
    have := hrest c hc
    rw [Bool.or_eq_false_iff] at this
    exact this.1
  rcases isPlainDecimal_cases h with hd | ⟨whole, fraction, hw, hf, rfl⟩
  · simp only [spanBoost, spanDigits_append hd.2 hdigit]
    cases rest with
    | nil => rfl
    | cons c rest =>
      have hc := stops_cons.1 hrest
      split
      · next hcons => cases hcons; cases hc
      · rfl
  · have hpoint : Stops Char.isDigit ('.' :: (fraction ++ rest)) := stops_cons.2 (by decide)
    rw [List.append_assoc, List.cons_append]
    simp only [spanBoost, spanDigits_append hw.2 hpoint, takeWhile_append_of_stops hf.2 hdigit]

theorem read_boost {text : List Char} (h : isPlainDecimal text)
    (hrest : Stops (fun c => c.isDigit || c = '.') rest) :
    Token.read position '^' (text ++ rest) = .ok (caret (readBinary? _ text), text.length) := by
  have hread : Token.read position '^' (text ++ rest) =
      .ok (caret (readBinary? _ (spanBoost (text ++ rest))), (spanBoost (text ++ rest)).length) :=
    rfl
  rw [hread, spanBoost_append h hrest]

end Token

/-! ### Texts with a token in front -/

namespace Lexes

variable {c : Char} {more rest text : List Char} {token : Token} {ts : List Token}

theorem punctuation (hp : Token.punctuation? c = some token) (hc : isBlank c = false)
    (h : Lexes rest ts) : Lexes (c :: rest) (token :: ts) := by
  have hread : ∀ position, Token.read position c ([] ++ rest) = .ok (token, 0) := fun position => by
    rw [Token.read, hp]
  exact cons hc hread h

theorem name (hc : Token.isNameStart c) (hmore : ∀ d ∈ more, isTermChar d)
    (hrest : Stops isTermChar rest) (h : Lexes rest ts) :
    Lexes (c :: (more ++ rest)) (Token.ofWord (c :: more) :: ts) :=
  cons (Token.isBlank_of_isNameStart hc) (fun _ => Token.read_name hc hmore hrest) h

theorem digits (hd : IsDigits text) {x : Double} (hx : readBinary? _ text = some x)
    (hrest : Stops Token.goesOnNumeric rest) (h : Lexes rest ts) :
    Lexes (text ++ rest) (.number x :: ts) := by
  obtain ⟨c, more, rfl⟩ := List.exists_cons_of_ne_nil hd.1
  have hread : ∀ position, Token.read position c (more ++ rest) =
      .ok (.number x, more.length) := fun position => by
    rw [Token.read_digits hd.2 hrest, hx, Option.getD_some]
  exact cons (isBlank_of_isDigit (hd.2 c List.mem_cons_self)) hread h

theorem boost (hd : isPlainDecimal text) (hrest : Stops (fun c => c.isDigit || c = '.') rest)
    (h : Lexes rest ts) : Lexes ('^' :: (text ++ rest)) (.caret (readBinary? _ text) :: ts) :=
  cons (by decide) (fun _ => Token.read_boost hd hrest) h

end Lexes

/-! ### Names of fields -/

theorem isTermChar_of_isName {c d : Char} {more : List Char} (h : Field.isName (c :: more))
    (hd : d ∈ more) : isTermChar d := by
  rw [Field.isName, Bool.and_eq_true, List.all_eq_true] at h
  have := h.2 d hd
  simp only [Bool.or_eq_true, decide_eq_true_eq] at this
  rcases this with ((h | rfl) | rfl) | rfl
  · simp [isTermChar, isTermStart, h]
  all_goals decide

theorem Token.ofWord_eq_term {word : List Char} (h : ¬ reservedWords.any (isWord · word)) :
    Token.ofWord word = .term (String.ofList word) := by
  simp only [reservedWords, List.any_cons, List.any_nil, Bool.or_false, Bool.or_eq_true,
    not_or] at h
  obtain ⟨hand, hor, hnot, hto⟩ := h
  rw [Token.ofWord, if_neg hand, if_neg hor, if_neg hnot, if_neg hto]

/-- A valid name is read as a term. -/
theorem Token.ofWord_name {name : String} (h : Field.nameFault? name = none) :
    Token.ofWord name.toList = .term name := by
  rw [Field.nameFault?] at h
  split at h
  · cases h
  · split at h
    · cases h
    · next hwords => rw [Token.ofWord_eq_term hwords, String.ofList_toList]

theorem isName_of_nameFault? {name : String} (h : Field.nameFault? name = none) :
    Field.isName name.toList := by
  rw [Field.nameFault?] at h
  split at h
  · cases h
  · next hname => simpa using hname

/-- A valid name is read as one token, up to a mark that no word has. -/
theorem Token.exists_read_fieldName {name : String} {c : Char}
    (hname : Field.nameFault? name = none) (hc : isTermChar c = false) (rest : List Char) :
    ∃ d more, name.toList = d :: more ∧ isBlank d = false ∧
      ∀ position, Token.read position d (more ++ c :: rest) = .ok (.term name, more.length) := by
  have hvalid := isName_of_nameFault? hname
  have hword := ofWord_name hname
  rcases hlist : name.toList with _ | ⟨d, more⟩
  · rw [hlist] at hvalid
    cases hvalid
  · rw [hlist] at hvalid hword
    have hd : isNameStart d := (Bool.and_eq_true _ _ ▸ hvalid).1
    refine ⟨d, more, rfl, isBlank_of_isNameStart hd, fun position => ?_⟩
    rw [read_name hd (fun _ => isTermChar_of_isName hvalid) (stops_cons.2 hc), hword]

/-- A valid name before a mark that no word has. -/
theorem Lexes.fieldName {name : String} {c : Char} {rest : List Char} {ts : List Token}
    (hname : Field.nameFault? name = none) (hc : isTermChar c = false)
    (h : Lexes (c :: rest) ts) : Lexes (name.toList ++ c :: rest) (.term name :: ts) := by
  obtain ⟨d, more, hlist, hd, hread⟩ := Token.exists_read_fieldName hname hc rest
  rw [hlist]
  exact .cons hd hread h

end QuantityQuery
