import QuantityQuery.Proofs.Query.Acceptance
import QuantityQuery.Proofs.Query.Embedding

/-!
# Words with signs for any characters

A word with asterisks or question marks is refused as a whole, but it may be read as
several conditions instead: a number ends before an asterisk, and an asterisk after it or
at the beginning stands for all documents. Which words are read like this is found from
the pieces between their asterisks (`FallsApart`); all other words are refused, alone and
after a field (`Node.ofText_word_iff`).
-/

namespace QuantityQuery

variable {c : Char} {word piece more rest : List Char} {ts us : List Token} {t : Token}

/-! ### The pieces of a word -/

/-- The letters and digits of words. -/
def isPieceChar (c : Char) : Bool := isAlphabetic c || c.isDigit

/-- The characters of words with signs for any characters. -/
def isWildcardChar (c : Char) : Bool := isPieceChar c || c = '*' || c = '?'

/-- A word falls apart into conditions: no question mark is in it, a piece before an asterisk is
    empty or begins with a digit, and the last piece is no word of the language. -/
structure FallsApart (word : List Char) : Prop where
  no_question : '?' ∉ word
  digit_first : ∀ piece ∈ (word.splitOn '*').dropLast, piece.head?.all Char.isDigit
  not_reserved : ∀ piece ∈ (word.splitOn '*').getLast?, ¬ reservedWords.any (isWord · piece)

instance (word : List Char) : Decidable (FallsApart word) :=
  decidable_of_iff
    ('?' ∉ word ∧ (∀ piece ∈ (word.splitOn '*').dropLast, piece.head?.all Char.isDigit) ∧
      ∀ piece ∈ (word.splitOn '*').getLast?, ¬ reservedWords.any (isWord · piece))
    ⟨fun ⟨hquestion, hfirst, hlast⟩ => ⟨hquestion, hfirst, hlast⟩,
      fun ⟨hquestion, hfirst, hlast⟩ => ⟨hquestion, hfirst, hlast⟩⟩

theorem fallsApart_append (hpiece : '*' ∉ piece) :
    FallsApart (piece ++ '*' :: rest) ↔
      '?' ∉ piece ∧ piece.head?.all Char.isDigit ∧ FallsApart rest := by
  have hsplit := List.splitOn_append_cons_self_of_not_mem hpiece rest
  have hne := List.splitOn_ne_nil '*' rest
  have hinit : ((piece ++ '*' :: rest).splitOn '*').dropLast =
      piece :: (rest.splitOn '*').dropLast := by
    rw [hsplit, List.dropLast_cons_of_ne_nil hne]
  have hlast : ((piece ++ '*' :: rest).splitOn '*').getLast? = (rest.splitOn '*').getLast? := by
    rw [hsplit, List.getLast?_cons_of_ne_nil hne]
  constructor
  · rintro ⟨hquestion, hfirst, hreserved⟩
    rw [hinit, List.forall_mem_cons] at hfirst
    rw [hlast] at hreserved
    simp only [List.mem_append, List.mem_cons, not_or] at hquestion
    exact ⟨hquestion.1, hfirst.1, hquestion.2.2, hfirst.2, hreserved⟩
  · rintro ⟨hquestion, hhead, hrest⟩
    refine ⟨?_, ?_, ?_⟩
    · simp [hquestion, hrest.no_question]
    · rw [hinit, List.forall_mem_cons]
      exact ⟨hhead, hrest.digit_first⟩
    · rw [hlast]
      exact hrest.not_reserved

theorem fallsApart_piece (hpiece : '*' ∉ piece) :
    FallsApart piece ↔ '?' ∉ piece ∧ ¬ reservedWords.any (isWord · piece) := by
  have hsplit := List.splitOn_eq_singleton hpiece
  constructor
  · rintro ⟨hquestion, -, hreserved⟩
    rw [hsplit] at hreserved
    exact ⟨hquestion, hreserved piece rfl⟩
  · rintro ⟨hquestion, hreserved⟩
    refine ⟨hquestion, ?_, ?_⟩
    · rw [hsplit]
      exact List.forall_mem_nil _
    · rw [hsplit]
      rintro _ ⟨⟩
      exact hreserved

theorem fallsApart_nil : FallsApart [] := by decide

theorem fallsApart_asterisk : FallsApart ('*' :: rest) ↔ FallsApart rest := by
  refine (fallsApart_append (List.not_mem_nil)).trans ?_
  simp

theorem isPieceChar_of_isDigit (h : c.isDigit) : isPieceChar c := by simp [isPieceChar, h]

theorem not_mem_of_isPieceChar (h : ∀ c ∈ piece, isPieceChar c) : '*' ∉ piece ∧ '?' ∉ piece :=
  ⟨fun hc => absurd (h _ hc) (by decide), fun hc => absurd (h _ hc) (by decide)⟩

/-- A piece that begins with a digit ends before an asterisk. -/
theorem fallsApart_digits (hc : c.isDigit) (hmore : ∀ d ∈ more, isPieceChar d)
    (hrest : Stops isPieceChar rest) (hword : ∀ d ∈ rest, isWildcardChar d) :
    FallsApart (c :: (more ++ rest)) ↔ FallsApart rest := by
  have hpiece : ∀ d ∈ c :: more, isPieceChar d :=
    List.forall_mem_cons.2 ⟨isPieceChar_of_isDigit hc, hmore⟩
  obtain ⟨hasterisk, hquestion⟩ := not_mem_of_isPieceChar hpiece
  rw [← List.cons_append]
  rcases rest with _ | ⟨d, rest⟩
  · rw [List.append_nil, fallsApart_piece hasterisk]
    exact iff_of_true ⟨hquestion, not_reserved_of_isDigit hc⟩ fallsApart_nil
  · have hd := hword d List.mem_cons_self
    rw [isWildcardChar, stops_cons.1 hrest, Bool.false_or, Bool.or_eq_true, decide_eq_true_eq,
      decide_eq_true_eq] at hd
    rcases hd with rfl | rfl
    · rw [fallsApart_append hasterisk, fallsApart_asterisk]
      simp [hquestion, hc]
    · exact iff_of_false (fun h => h.no_question (by simp)) (fun h => h.no_question (by simp))

/-- A word that begins with a letter has no asterisk. -/
theorem fallsApart_letters (hc : isAlphabetic c) :
    FallsApart (c :: more) ↔
      '*' ∉ c :: more ∧ '?' ∉ c :: more ∧ ¬ reservedWords.any (isWord · (c :: more)) := by
  constructor
  · intro h
    have hasterisk : '*' ∉ c :: more := by
      intro hmem
      obtain ⟨piece, rest, heq, hpiece⟩ := List.eq_append_cons_of_mem hmem
      rw [heq, fallsApart_append hpiece] at h
      cases piece with
      | nil =>
        obtain ⟨rfl, -⟩ := List.cons.inj heq
        exact absurd hc (by decide)
      | cons d piece =>
        obtain ⟨rfl, -⟩ := List.cons.inj heq
        exact absurd h.2.1 (Bool.eq_false_iff.1 (isDigit_of_isAlphabetic hc))
    exact ⟨hasterisk, (fallsApart_piece hasterisk).1 h⟩
  · rintro ⟨hasterisk, hpiece⟩
    exact (fallsApart_piece hasterisk).2 hpiece

/-- A word, from its front: an asterisk, a piece that begins with a digit, or all the rest of it,
    which begins with a letter or a question mark. -/
inductive WordFront : List Char → Prop
  | nil : WordFront []
  | asterisk {rest : List Char} : WordFront rest → WordFront ('*' :: rest)
  | digits {c : Char} {more rest : List Char} : c.isDigit → (∀ d ∈ more, isPieceChar d) →
      Stops isPieceChar rest → (∀ d ∈ rest, isWildcardChar d) → WordFront rest →
      WordFront (c :: (more ++ rest))
  | letters {c : Char} {rest : List Char} : isAlphabetic c → (∀ d ∈ rest, isWildcardChar d) →
      WordFront (c :: rest)
  | question {rest : List Char} : WordFront ('?' :: rest)

theorem wordFront_of_isWildcardChar (word : List Char) (hword : ∀ c ∈ word, isWildcardChar c) :
    WordFront word := by
  match word, hword with
  | [], _ => exact .nil
  | c :: text, hword =>
    obtain ⟨hc, htext⟩ := List.forall_mem_cons.1 hword
    simp only [isWildcardChar, isPieceChar, Bool.or_eq_true, decide_eq_true_eq] at hc
    rcases hc with ((hletter | hdigit) | rfl) | rfl
    · exact .letters hletter htext
    · have hmore : ∀ d ∈ text.takeWhile isPieceChar, isPieceChar d := fun _ =>
        List.mem_takeWhile_imp
      have hrest : ∀ d ∈ text.dropWhile isPieceChar, isWildcardChar d := fun d hd =>
        htext d ((List.dropWhile_suffix _).mem hd)
      have hlength := (List.dropWhile_suffix isPieceChar (l := text)).length_le
      rw [← List.takeWhile_append_dropWhile (p := isPieceChar) (l := text)]
      exact .digits hdigit hmore (stops_dropWhile _ _) hrest (wordFront_of_isWildcardChar _ hrest)
    · exact .asterisk (wordFront_of_isWildcardChar _ htext)
    · exact .question
termination_by word.length

/-! ### The tokens of a word -/

/-- A token that is a condition on its own, and also after a field and a colon. -/
def Token.isCondition : Token → Bool
  | asterisk => true
  | t => t.isValue

theorem Token.isCondition_of_isValue (h : t.isValue) : t.isCondition := by
  cases t <;> first | exact h | rfl

theorem isWildcard_ofList :
    isWildcard (String.ofList word) = false ↔ '*' ∉ word ∧ '?' ∉ word := by
  rw [isWildcard, String.toList_ofList, List.any_eq_false]
  constructor
  · intro h
    exact ⟨fun hmem => h _ hmem rfl, fun hmem => h _ hmem rfl⟩
  · rintro ⟨hasterisk, hquestion⟩ c hc
    simp only [Bool.or_eq_true, decide_eq_true_eq]
    rintro (rfl | rfl)
    · exact hasterisk hc
    · exact hquestion hc

theorem Token.isValue_term (h : '*' ∉ word ∧ '?' ∉ word) : (term (String.ofList word)).isValue := by
  rw [isValue, isWildcard_ofList.2 h]
  rfl

theorem endsClause_ofWord_of_reserved (h : reservedWords.any (isWord · word)) :
    (Token.ofWord word).endsClause = false := by
  rw [Token.ofWord]
  split_ifs with hand hor hnot hto
  · rfl
  · rfl
  · rfl
  · rfl
  · exact absurd h (by simp [reservedWords, hand, hor, hnot, hto])

/-- Words of the language and words with signs for any characters end no clause. -/
theorem endsClause_ofWord_iff :
    (Token.ofWord word).endsClause ↔
      '*' ∉ word ∧ '?' ∉ word ∧ ¬ reservedWords.any (isWord · word) := by
  by_cases h : reservedWords.any (isWord · word)
  · rw [endsClause_ofWord_of_reserved h]
    exact iff_of_false Bool.false_ne_true fun hword => hword.2.2 h
  · rw [Token.ofWord_eq_term h, Token.endsClause, Bool.not_eq_true', isWildcard_ofList]
    constructor
    · rintro ⟨hasterisk, hquestion⟩
      exact ⟨hasterisk, hquestion, h⟩
    · rintro ⟨hasterisk, hquestion, -⟩
      exact ⟨hasterisk, hquestion⟩

theorem isCondition_ofWord (hasterisk : '*' ∉ word) (hquestion : '?' ∉ word)
    (h : ¬ reservedWords.any (isWord · word)) : (Token.ofWord word).isCondition := by
  rw [Token.ofWord_eq_term h]
  exact Token.isCondition_of_isValue (Token.isValue_term ⟨hasterisk, hquestion⟩)

theorem isCondition_ofNumeric (hpiece : ∀ d ∈ piece, isPieceChar d) :
    (Token.ofNumeric piece).isCondition := by
  rw [Token.ofNumeric]
  split
  · rfl
  · exact Token.isCondition_of_isValue (Token.isValue_term (not_mem_of_isPieceChar hpiece))

theorem read_piece (hc : c.isDigit) (hmore : ∀ d ∈ more, isPieceChar d)
    (hrest : Stops isPieceChar rest) (hword : ∀ d ∈ rest, isWildcardChar d) (position : Nat) :
    Token.read position c (more ++ rest) = .ok (.ofNumeric (c :: more), more.length) := by
  have hstops : Stops Token.goesOnNumeric rest := by
    intro d hd
    have hpiece := hrest d hd
    have hwild := hword d (List.mem_of_mem_head? hd)
    rw [isWildcardChar, hpiece, Bool.false_or, Bool.or_eq_true, decide_eq_true_eq,
      decide_eq_true_eq] at hwild
    rcases hwild with rfl | rfl <;> decide
  refine Token.read_numeric hc (fun d hd => ?_) hstops
  have := hmore d hd
  rw [isPieceChar, Bool.or_eq_true] at this
  rcases this with h | h <;> simp [h]

theorem read_letters (hc : isAlphabetic c) (hword : ∀ d ∈ more, isWildcardChar d) (position : Nat) :
    Token.read position c more = .ok (.ofWord (c :: more), more.length) := by
  have hmore : ∀ d ∈ more, isTermChar d := by
    intro d hd
    have := hword d hd
    simp only [isWildcardChar, isPieceChar, Bool.or_eq_true, decide_eq_true_eq] at this
    rcases this with ((h | h) | rfl) | rfl
    · simp [isTermChar, isTermStart, isAlphanumeric, h]
    · simp [isTermChar, isTermStart, isAlphanumeric_of_isDigit h]
    · decide
    · decide
  have hstart : Token.isNameStart c := by simp [Token.isNameStart, hc]
  simpa only [List.append_nil] using Token.read_name hstart hmore stops_nil

theorem forall_mem_getLast?_of_cons {P : Token → Prop} (h : ∀ u ∈ (t :: ts).getLast?, P u) :
    ∀ u ∈ ts.getLast?, P u := by
  cases ts with
  | nil => exact fun _ hu => nomatch hu
  | cons u ts => rwa [List.getLast?_cons_cons] at h

/-- A word whose last token ends a clause falls apart. -/
theorem WordFront.fallsApart (hword : WordFront word) (h : FallsInto word ts)
    (hlast : ∀ t ∈ ts.getLast?, t.endsClause) : FallsApart word := by
  induction hword generalizing ts with
  | nil => exact fallsApart_nil
  | asterisk _ ih =>
    obtain ⟨us, rfl, hrest⟩ := (fallsInto_cons_iff (by decide) fun _ => rfl).1 h
    exact fallsApart_asterisk.2 (ih hrest (forall_mem_getLast?_of_cons hlast))
  | digits hc hmore hstops hchars _ ih =>
    obtain ⟨us, rfl, hrest⟩ := (fallsInto_cons_iff (isBlank_of_isDigit hc)
      (read_piece hc hmore hstops hchars)).1 h
    rw [List.drop_left] at hrest
    exact (fallsApart_digits hc hmore hstops hchars).2
      (ih hrest (forall_mem_getLast?_of_cons hlast))
  | letters hc hchars =>
    -- All of the word is its only token.
    obtain ⟨us, rfl, hrest⟩ := (fallsInto_cons_iff (isBlank_of_isAlphabetic hc)
      (read_letters hc hchars)).1 h
    rw [List.drop_length] at hrest
    cases hrest
    exact (fallsApart_letters hc).2 (endsClause_ofWord_iff.1 (hlast _ rfl))
  | question => exact absurd h (not_fallsInto_cons (by decide) rfl)

/-- A word that falls apart is read as conditions. -/
theorem WordFront.exists_fallsInto (hword : WordFront word) (h : FallsApart word) :
    ∃ ts, FallsInto word ts ∧ ∀ t ∈ ts, t.isCondition := by
  induction hword with
  | nil => exact ⟨[], .nil, List.forall_mem_nil _⟩
  | asterisk _ ih =>
    obtain ⟨ts, hts, hconditions⟩ := ih (fallsApart_asterisk.1 h)
    exact ⟨_, .token (by decide) (fun _ => rfl) hts, List.forall_mem_cons.2 ⟨rfl, hconditions⟩⟩
  | @digits c more rest hc hmore hstops hchars _ ih =>
    obtain ⟨ts, hts, hconditions⟩ := ih ((fallsApart_digits hc hmore hstops hchars).1 h)
    have hpiece : ∀ d ∈ c :: more, isPieceChar d :=
      List.forall_mem_cons.2 ⟨isPieceChar_of_isDigit hc, hmore⟩
    refine ⟨_, .token (isBlank_of_isDigit hc) (read_piece hc hmore hstops hchars) ?_,
      List.forall_mem_cons.2 ⟨isCondition_ofNumeric hpiece, hconditions⟩⟩
    rwa [List.drop_left]
  | letters hc hchars =>
    obtain ⟨hasterisk, hquestion, hreserved⟩ := (fallsApart_letters hc).1 h
    refine ⟨_, .token (isBlank_of_isAlphabetic hc) (read_letters hc hchars) ?_,
      List.forall_mem_singleton.2 (isCondition_ofWord hasterisk hquestion hreserved)⟩
    rw [List.drop_length]
    exact .nil
  | question => exact absurd List.mem_cons_self h.no_question

/-! ### Words alone and after a field -/

theorem isBlank_of_isWildcardChar (h : isWildcardChar c) : isBlank c = false := by
  simp only [isWildcardChar, isPieceChar, Bool.or_eq_true, decide_eq_true_eq] at h
  rcases h with ((h | h) | rfl) | rfl
  · exact isBlank_of_isAlphabetic h
  · exact isBlank_of_isDigit h
  · decide
  · decide

theorem isPrimary_of_isCondition (h : t.isCondition) : IsPrimary [t] := by
  cases t with
  | asterisk => exact .all .absent
  | _ => exact .value h .absent

theorem isPrimary_field_of_isCondition (field : String) (h : t.isCondition) :
    IsPrimary [.term field, .colon, t] := by
  cases t with
  | asterisk => exact .fieldAny field .absent
  | _ => exact .fieldValue field h .absent

/-- Further conditions stand beside the others. -/
theorem IsConjunction.append (h : IsConjunction ts) (hus : ∀ t ∈ us, t.isCondition) :
    IsConjunction (ts ++ us) := by
  induction us generalizing ts with
  | nil => rwa [List.append_nil]
  | cons t us ih =>
    obtain ⟨ht, hus⟩ := List.forall_mem_cons.1 hus
    rw [List.append_cons]
    exact ih (.beside h (.plain (isPrimary_of_isCondition ht))) hus

variable {field name text : String} {op : Operator}

theorem fallsInto_fieldName_iff (hname : Field.nameFault? name = none) :
    FallsInto (name.toList ++ ':' :: word) ts ↔
      ∃ us, ts = [.term name, .colon] ++ us ∧ FallsInto word us := by
  obtain ⟨c, more, hlist, hc, hread⟩ :=
    Token.exists_read_fieldName (c := ':') hname (by decide) word
  rw [hlist, List.cons_append, fallsInto_cons_iff hc hread, List.drop_left]
  constructor
  · rintro ⟨_, rfl, hcolon⟩
    obtain ⟨us, rfl, hus⟩ := (fallsInto_cons_iff (c := ':') (by decide) fun _ => rfl).1 hcolon
    exact ⟨us, rfl, hus⟩
  · rintro ⟨us, rfl, h⟩
    exact ⟨.colon :: us, rfl, .token (by decide) (fun _ => rfl) h⟩

namespace Node

theorem accepts_iff_fallsInto :
    (∃ q, ofText field op text = .ok q) ↔ ∃ ts, FallsInto text.toList ts ∧ IsQuery ts := by
  rw [ofText_accepts_iff]
  constructor
  · rintro ⟨hfault, hquery⟩
    exact ⟨_, fallsInto_of_fault_eq_none hfault, hquery⟩
  · rintro ⟨ts, hts, hquery⟩
    exact ⟨hts.lexes.fault_eq 0, (hts.lexes.tokens_eq 0).symm ▸ hquery⟩

/-- A word is accepted after some tokens if and only if it falls apart, if each of the conditions
    that words fall apart into can come after these tokens. -/
theorem accepts_word_iff (before : List Token) (hword : ∀ c ∈ word, isWildcardChar c)
    (hne : word ≠ [])
    (htext : ∀ ts, FallsInto text.toList ts ↔ ∃ us, ts = before ++ us ∧ FallsInto word us)
    (hbefore : ∀ t : Token, t.isCondition → IsPrimary (before ++ [t])) :
    (∃ q, ofText field op text = .ok q) ↔ FallsApart word := by
  have hfront := wordFront_of_isWildcardChar word hword
  rw [accepts_iff_fallsInto]
  constructor
  · rintro ⟨_, hts, hquery⟩
    obtain ⟨us, rfl, hus⟩ := (htext _).1 hts
    refine hfront.fallsApart hus fun u hu => ?_
    obtain ⟨chain, hchain⟩ := isQuery_iff.1 hquery
    obtain ⟨init, t, heq, ht⟩ := hchain.eq_concat
    have hlast : (before ++ us).getLast? = some u := by
      rw [List.getLast?_append, show us.getLast? = some u from hu, Option.some_or]
    rw [heq, List.getLast?_concat] at hlast
    exact Option.some.inj hlast ▸ ht
  · intro h
    obtain ⟨us, hus, hconditions⟩ := hfront.exists_fallsInto h
    refine ⟨before ++ us, (htext _).2 ⟨us, rfl, hus⟩, .one ?_⟩
    cases us with
    | nil =>
      cases hus with
      | nil => exact absurd rfl hne
      | blank hc =>
        have := isBlank_of_isWildcardChar (hword _ List.mem_cons_self)
        rw [hc] at this
        cases this
    | cons t us =>
      obtain ⟨ht, hconditions⟩ := List.forall_mem_cons.1 hconditions
      rw [List.append_cons]
      exact .append (.one (.plain (hbefore t ht))) hconditions

/-- A word of letters, digits, asterisks and question marks, alone or after a valid field, is
    refused if and only if it does not fall apart. -/
theorem ofText_word_iff (field : String) (op : Operator) {name word : String}
    (hname : Field.nameFault? name = none) (hword : ∀ c ∈ word.toList, isWildcardChar c)
    (hne : word ≠ "") :
    ((∃ fault : QueryError, ofText field op word = .error fault) ↔ ¬ FallsApart word.toList) ∧
    ((∃ fault : QueryError, ofText field op (name ++ ":" ++ word) = .error fault) ↔
      ¬ FallsApart word.toList) := by
  have hfails : ∀ text, (∃ fault : QueryError, ofText field op text = .error fault) ↔
      ¬ ∃ q, ofText field op text = .ok q := by
    intro text
    cases ofText field op text <;> simp
  have hcons : word.toList ≠ [] := fun h => hne (String.toList_eq_nil_iff.1 h)
  constructor
  · rw [hfails, accepts_word_iff [] hword hcons ?_ fun _ => isPrimary_of_isCondition]
    simp
  · rw [hfails, accepts_word_iff [.term name, .colon] hword hcons ?_
      fun _ => isPrimary_field_of_isCondition name]
    intro ts
    rw [← fallsInto_fieldName_iff hname]
    simp

theorem ofText_word_iff_letters :
    Field.nameFault? "size" = none ∧ (∀ c ∈ "ab*".toList, isWildcardChar c) ∧ "ab*" ≠ "" ∧
      (∃ fault : QueryError, ofText "content" .or "ab*" = .error fault) ∧
      ∃ fault : QueryError, ofText "content" .or ("size" ++ ":" ++ "ab*") = .error fault := by
  have hname : Field.nameFault? "size" = none := by decide
  have hword : ∀ c ∈ "ab*".toList, isWildcardChar c := List.all_eq_true.1 (by decide)
  have h := ofText_word_iff "content" .or hname hword (by decide)
  have hapart : ¬ FallsApart "ab*".toList := by decide
  exact ⟨hname, hword, by decide, h.1.2 hapart, h.2.2 hapart⟩

/-- A number before an asterisk is read as two conditions, one of which every document meets. -/
theorem ofText_number_asterisk :
    (∀ c ∈ "42*".toList, isWildcardChar c) ∧ Field.nameFault? "size" = none ∧
      ofText "content" .or "42*" = .ok (.bool [] [.term ⟨"content", "42", 1⟩, .all 1] []) ∧
      ofText "content" .or ("size" ++ ":" ++ "42*") =
        .ok (.bool [] [.term ⟨"size", "42", 1⟩, .all 1] []) := by
  have hname : Field.nameFault? "size" = none := by decide
  have hasterisk : Lexes ['*'] [.asterisk] := .punctuation rfl (by decide) .nil
  have hdigits : Lexes (['4', '2'] ++ ['*']) [.number (.ofInt 42), .asterisk] :=
    .digits ⟨by decide, List.all_eq_true.1 (by decide)⟩ (by decide +kernel)
      (stops_cons.2 (by decide)) hasterisk
  have hword : Lexes "42*".toList [.number (.ofInt 42), .asterisk] := hdigits
  have hcolon : Lexes (':' :: (['4', '2'] ++ ['*'])) (.colon :: _) :=
    .punctuation rfl (by decide) hdigits
  have hfield : Lexes ("size" ++ ":" ++ "42*").toList
      [.term "size", .colon, .number (.ofInt 42), .asterisk] :=
    Lexes.fieldName hname (by decide) hcolon
  have hwrite : Layout.plain.write (.ofInt 42 : Double) = "42" := by decide +kernel
  have hvalue : ValueWritten "42" (.number (.ofInt 42)) := hwrite ▸ .number (.ofInt 42)
  have hlast : (Clause.leaf .plain (.all 1)).WrittenAs [.asterisk] := .leaf .plain (.all .absent)
  refine ⟨List.all_eq_true.1 (by decide), hname, ?_, ?_⟩
  · exact ofText_eq_ok_iff.2 ⟨_, (Chain.ofText_eq_ok_iff_of_lexes hword).2
      (.link (.one (.leaf .plain (.value hvalue .absent))) .beside hlast), rfl⟩
  · exact ofText_eq_ok_iff.2 ⟨_, (Chain.ofText_eq_ok_iff_of_lexes hfield).2
      (.link (.one (.leaf .plain (.fieldValue hvalue .absent))) .beside hlast), rfl⟩

end Node

end QuantityQuery
