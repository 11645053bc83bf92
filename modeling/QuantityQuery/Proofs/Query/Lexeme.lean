import Mathlib.Data.List.TakeWhile
import QuantityQuery.Proofs.Query.Lexing

/-!
# The characters of tokens

Which characters a token is written with, said of the token alone: no order of reading and no
looking ahead. A token is read from nothing else (`Token.exists_of_read`), so a text that was
read falls into blanks and the characters of its tokens.
-/

namespace QuantityQuery

variable {c mark : Char} {position size : Nat} {text inner more rest : List Char} {token : Token}

/-- Words of the language begin with letters. -/
theorem not_reserved_of_isDigit (hc : c.isDigit) : ¬ reservedWords.any (isWord · (c :: more)) := by
  intro h
  obtain ⟨word, hmem, hword⟩ := List.any_eq_true.1 h
  have hletter : reservedWords.all fun word => !word.toList.head?.any Char.isDigit := by decide
  have hupper : c.toUpper = c := by
    have hrange := isDigit_iff.1 hc
    delta Char.toUpper
    rw [dif_neg (by simp [UInt32.le_iff_toNat_le]; omega)]
  have hhead : word.toList.head? = some c := by
    rw [← of_decide_eq_true hword, List.map_cons, List.head?_cons, hupper]
  have := List.all_eq_true.1 hletter word hmem
  rw [hhead, Option.any_some, hc] at this
  cases this

namespace Token

/-! ### What tokens are written with -/

/-- A text as it is written between quotes. A backslash takes the character after it with it,
    also where that is a quote. -/
inductive QuotedAs (mark : Char) : List Char → List Char → Prop
  | nil : QuotedAs mark [] []
  | char {c : Char} {text inner : List Char} : c ≠ mark → c ≠ '\\' → QuotedAs mark text inner →
      QuotedAs mark (c :: text) (c :: inner)
  | escape {d : Char} {text inner : List Char} : QuotedAs mark text inner →
      QuotedAs mark (unescape mark d ++ text) ('\\' :: d :: inner)

/-- The characters of a token. -/
inductive WrittenAs : Token → List Char → Prop
  | punctuation {c : Char} {token : Token} : punctuation? c = some token → WrittenAs token [c]
  | and {word : List Char} : isWord "AND" word → WrittenAs .and word
  | or {word : List Char} : isWord "OR" word → WrittenAs .or word
  | not {word : List Char} : isWord "NOT" word → WrittenAs .not word
  | upTo {word : List Char} : isWord "TO" word → WrittenAs .upTo word
  | term {c : Char} {more : List Char} : isTermStart c → (∀ d ∈ more, isTermChar d) →
      ¬ reservedWords.any (isWord · (c :: more)) →
      WrittenAs (.term (String.ofList (c :: more))) (c :: more)
  | number {c : Char} {more : List Char} {x : Double} : c.isDigit →
      (∀ d ∈ more, d.isDigit || d = '.') → readBinary? _ (c :: more) = some x →
      WrittenAs (.number x) (c :: more)
  /-- Quotes of either kind, the same at both ends. -/
  | quoted {mark : Char} {text inner : List Char} : mark = '"' ∨ mark = '\'' →
      QuotedAs mark text inner →
      WrittenAs (.quoted (String.ofList text)) (mark :: (inner ++ [mark]))
  | tilde {digits : List Char} : (∀ d ∈ digits, d.isDigit) →
      WrittenAs (.tilde (readNat? maxDistance digits)) ('~' :: digits)
  | caret {text : List Char} : (∀ d ∈ text, d.isDigit || d = '.') →
      WrittenAs (.caret (readBinary? _ text)) ('^' :: text)

/-! ### Spans of characters -/

theorem isTermChar_of_goesOnNumeric (h : goesOnNumeric c) : isTermChar c := by
  simp only [goesOnNumeric, Bool.or_eq_true, decide_eq_true_eq] at h
  rcases h with (((h | rfl) | h) | rfl) | rfl
  · simp [isTermChar, isTermStart, isAlphanumeric_of_isDigit h]
  · decide
  · simp [isTermChar, isTermStart, isAlphanumeric, h]
  · decide
  · decide

theorem spanNumeric_prefix (pointed : Bool) (text : List Char) :
    spanNumeric pointed text <+: text := by
  induction text generalizing pointed with
  | nil => exact List.prefix_rfl
  | cons c text ih =>
    rw [spanNumeric]
    split
    · exact List.prefix_cons_inj c |>.2 (ih pointed)
    · split
      · exact List.prefix_cons_inj c |>.2 (ih true)
      · exact List.nil_prefix

theorem goesOnNumeric_of_mem_spanNumeric {pointed : Bool} (text : List Char) :
    ∀ c ∈ spanNumeric pointed text, goesOnNumeric c := by
  induction text generalizing pointed with
  | nil => exact List.forall_mem_nil _
  | cons c text ih =>
    rw [spanNumeric]
    split
    case isTrue hc =>
      refine List.forall_mem_cons.2 ⟨?_, ih⟩
      simp only [Bool.or_eq_true, Bool.and_eq_true] at hc
      simp only [goesOnNumeric, Bool.or_eq_true]
      exact .inl (hc.imp_right And.left)
    case isFalse =>
      split
      case isTrue hc =>
        refine List.forall_mem_cons.2 ⟨?_, ih⟩
        simp only [Bool.and_eq_true, decide_eq_true_eq] at hc
        rw [hc.1.1]
        decide
      case isFalse => exact List.forall_mem_nil _

theorem spanBoost_prefix (text : List Char) : spanBoost text <+: text := by
  have hsplit := List.takeWhile_append_dropWhile (p := Char.isDigit) (l := text)
  simp only [spanBoost, spanDigits]
  split
  · next rest hrest =>
    have hpoint : '.' :: rest.takeWhile Char.isDigit <+: text.dropWhile Char.isDigit :=
      hrest ▸ (List.prefix_cons_inj '.').2 (List.takeWhile_prefix _)
    calc text.takeWhile Char.isDigit ++ '.' :: rest.takeWhile Char.isDigit
        <+: text.takeWhile Char.isDigit ++ text.dropWhile Char.isDigit :=
          (List.prefix_append_right_inj _).2 hpoint
      _ = text := hsplit
  · exact List.takeWhile_prefix _

theorem mem_spanBoost {text : List Char} :
    ∀ c ∈ spanBoost text, c.isDigit || c = '.' := by
  have hdigits : ∀ l : List Char, ∀ c ∈ l.takeWhile Char.isDigit, c.isDigit || c = '.' :=
    fun l c hc => by rw [List.all_eq_true.1 List.all_takeWhile c hc, Bool.true_or]
  intro c hc
  simp only [spanBoost, spanDigits] at hc
  split at hc
  · rcases List.mem_append.1 hc with hc | hc
    · exact hdigits _ c hc
    · rcases List.mem_cons.1 hc with rfl | hc
      · rfl
      · exact hdigits _ c hc
  · exact hdigits _ c hc

/-! ### Numbers -/

/-- A point goes on a number in the second way only: once, and before a digit. -/
theorem isDigit_of_goesOn {beforeDigit : Bool}
    (hc : c.isDigit || c = '_' || isAlphabetic c || (c = '-' && beforeDigit))
    (h : c.isDigit || c = '.') : c.isDigit := by
  refine (Bool.or_eq_true_iff.1 h).resolve_right fun hpoint => ?_
  rw [of_decide_eq_true hpoint] at hc
  cases beforeDigit <;> exact absurd hc (by decide)

/-- After the point no second one follows. -/
theorem isDigit_of_mem_spanNumeric_true (h : ∀ d ∈ spanNumeric true text, d.isDigit || d = '.') :
    ∀ d ∈ spanNumeric true text, d.isDigit := by
  induction text with
  | nil => exact List.forall_mem_nil _
  | cons c text ih =>
    rw [spanNumeric] at h ⊢
    split at h
    case isTrue hc =>
      obtain ⟨hdigit, h⟩ := List.forall_mem_cons.1 h
      rw [if_pos hc]
      exact List.forall_mem_cons.2 ⟨isDigit_of_goesOn hc hdigit, ih h⟩
    case isFalse hc => simp [hc]

/-- A span without letters is digits, with a point and digits after them or without. -/
theorem spanNumeric_cases (h : ∀ d ∈ spanNumeric false text, d.isDigit || d = '.') :
    ∃ whole, (∀ d ∈ whole, d.isDigit) ∧ (spanNumeric false text = whole ∨
      ∃ fraction, (∀ d ∈ fraction, d.isDigit) ∧
        spanNumeric false text = whole ++ '.' :: fraction) := by
  induction text with
  | nil => exact ⟨[], List.forall_mem_nil _, .inl rfl⟩
  | cons c text ih =>
    rw [spanNumeric] at h ⊢
    split at h
    case isTrue hc =>
      obtain ⟨hdigit, h⟩ := List.forall_mem_cons.1 h
      obtain ⟨whole, hwhole, hspan⟩ := ih h
      rw [if_pos hc]
      refine ⟨c :: whole, List.forall_mem_cons.2 ⟨isDigit_of_goesOn hc hdigit, hwhole⟩, ?_⟩
      rcases hspan with hspan | ⟨fraction, hfraction, hspan⟩
      · exact .inl (congrArg _ hspan)
      · exact .inr ⟨fraction, hfraction, congrArg _ hspan⟩
    case isFalse hc =>
      rw [if_neg hc]
      split at h
      case isTrue hpoint =>
        obtain ⟨-, h⟩ := List.forall_mem_cons.1 h
        rw [if_pos hpoint]
        simp only [Bool.and_eq_true, decide_eq_true_eq] at hpoint
        exact ⟨[], List.forall_mem_nil _, .inr
          ⟨_, isDigit_of_mem_spanNumeric_true h, by rw [hpoint.1.1]; rfl⟩⟩
      case isFalse hpoint =>
        rw [if_neg hpoint]
        exact ⟨[], List.forall_mem_nil _, .inl rfl⟩

/-- What begins with a digit and has no letters is a numeral. -/
theorem exists_readBinary?_spanNumeric (F : Format) (hc : c.isDigit)
    (h : ∀ d ∈ spanNumeric false text, d.isDigit || d = '.') :
    ∃ x, readBinary? F (c :: spanNumeric false text) = some x := by
  rw [(readBinary?_of_isDigit hc _).1]
  obtain ⟨whole, hwhole, hspan | ⟨fraction, hfraction, hspan⟩⟩ := spanNumeric_cases h
  all_goals have hdigits : IsDigits (c :: whole) := ⟨by simp, List.forall_mem_cons.2 ⟨hc, hwhole⟩⟩
  · rw [hspan, readDecimal?_digits false hdigits]
    exact ⟨_, rfl⟩
  · rw [hspan, ← List.cons_append, readDecimal?_point false hdigits hfraction]
    exact ⟨_, rfl⟩

/-! ### Words -/

theorem writtenAs_ofWord (hc : isTermStart c) (hmore : ∀ d ∈ more, isTermChar d) :
    (ofWord (c :: more)).WrittenAs (c :: more) := by
  unfold ofWord
  split_ifs with hand hor hnot hto
  · exact .and hand
  · exact .or hor
  · exact .not hnot
  · exact .upTo hto
  · exact .term hc hmore (by simp [reservedWords, hand, hor, hnot, hto])

theorem writtenAs_ofNumeric (hc : c.isDigit) (text : List Char) :
    (ofNumeric (c :: spanNumeric false text)).WrittenAs (c :: spanNumeric false text) := by
  unfold ofNumeric
  split
  case isTrue hall =>
    have hmore := (List.forall_mem_cons.1 (List.all_eq_true.1 hall)).2
    obtain ⟨x, hx⟩ := exists_readBinary?_spanNumeric _ hc hmore
    rw [hx]
    exact .number hc hmore hx
  case isFalse =>
    refine .term (by simp [isTermStart, isAlphanumeric_of_isDigit hc]) (fun d hd => ?_)
      (not_reserved_of_isDigit hc)
    exact isTermChar_of_goesOnNumeric (goesOnNumeric_of_mem_spanNumeric text d hd)

/-! ### Quoted texts -/

/-- The quote closes the text. -/
theorem readQuoted_closing (mark : Char) (rest : List Char) :
    readQuoted mark (mark :: rest) = some ([], 1) := by
  cases rest with
  | nil => exact if_pos rfl
  | cons => exact if_pos rfl

/-- Any character but the quote and a backslash stands for itself. -/
theorem readQuoted_char (hmark : c ≠ mark) (hslash : c ≠ '\\') (text : List Char) :
    readQuoted mark (c :: text) =
      (readQuoted mark text).map fun (text, size) => (c :: text, size + 1) := by
  cases text with
  | nil => exact if_neg hmark
  | cons => rw [readQuoted, if_neg hmark, if_neg hslash]

/-- A backslash takes the character after it with it, be it the quote. -/
theorem readQuoted_backslash (hmark : '\\' ≠ mark) (d : Char) (text : List Char) :
    readQuoted mark ('\\' :: d :: text) =
      (readQuoted mark text).map fun (text, size) => (unescape mark d ++ text, size + 2) := by
  rw [readQuoted, if_neg hmark, if_pos rfl]

theorem exists_of_readQuoted {out : List Char × Nat} (h : readQuoted mark text = some out) :
    ∃ inner rest, text = inner ++ mark :: rest ∧ out.2 = inner.length + 1 ∧
      QuotedAs mark out.1 inner := by
  fun_induction readQuoted mark text generalizing out with
  | case1 => cases h
  | case2 =>
    cases h
    exact ⟨[], [], rfl, rfl, .nil⟩
  | case3 => cases h
  | case4 d rest =>
    cases h
    exact ⟨[], d :: rest, rfl, rfl, .nil⟩
  | case5 d more hmark ih =>
    obtain ⟨out, hout, rfl⟩ := Option.map_eq_some_iff.1 h
    obtain ⟨inner, rest, rfl, hsize, hquoted⟩ := ih hout
    exact ⟨'\\' :: d :: inner, rest, rfl, congrArg (· + 2) hsize, .escape hquoted⟩
  | case6 c d more hmark hescape ih =>
    obtain ⟨out, hout, rfl⟩ := Option.map_eq_some_iff.1 h
    obtain ⟨inner, rest, heq, hsize, hquoted⟩ := ih hout
    exact ⟨c :: inner, rest, congrArg (c :: ·) heq, congrArg (· + 1) hsize,
      .char hmark hescape hquoted⟩

/-! ### All tokens -/

/-- A token takes the characters that it is written with from the front of a text. -/
theorem exists_of_read (h : Token.read position c text = .ok (token, size)) :
    ∃ more rest, text = more ++ rest ∧ size = more.length ∧ token.WrittenAs (c :: more) := by
  unfold Token.read at h
  split at h
  case h_1 hmark =>
    cases h
    exact ⟨[], text, rfl, rfl, .punctuation hmark⟩
  case h_2 =>
    split_ifs at h with htilde hcaret hquote hdigit hstart
    · cases h
      rw [htilde]
      exact ⟨_, _, List.takeWhile_append_dropWhile.symm, rfl,
        .tilde (List.all_eq_true.1 List.all_takeWhile)⟩
    · cases h
      obtain ⟨rest, hrest⟩ := spanBoost_prefix text
      rw [hcaret]
      exact ⟨_, rest, hrest.symm, rfl, .caret mem_spanBoost⟩
    · cases hread : readQuoted c text with
      | none =>
        rw [hread] at h
        cases h
      | some out =>
        rw [hread] at h
        cases h
        obtain ⟨inner, rest, rfl, hsize, hquoted⟩ := exists_of_readQuoted hread
        exact ⟨inner ++ [c], rest, by simp, by rw [hsize, List.length_append]; rfl,
          .quoted hquote hquoted⟩
    · cases h
      obtain ⟨rest, hrest⟩ := spanNumeric_prefix false text
      exact ⟨_, rest, hrest.symm, rfl, writtenAs_ofNumeric hdigit text⟩
    · cases h
      exact ⟨_, _, List.takeWhile_append_dropWhile.symm, rfl,
        writtenAs_ofWord hstart (List.all_eq_true.1 List.all_takeWhile)⟩

theorem size_le_of_read (h : Token.read position c text = .ok (token, size)) :
    size ≤ text.length := by
  obtain ⟨more, rest, rfl, rfl, -⟩ := exists_of_read h
  rw [List.length_append]
  exact Nat.le_add_right _ _

end Token

end QuantityQuery
