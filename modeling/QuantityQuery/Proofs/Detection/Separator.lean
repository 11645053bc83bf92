import Mathlib.Data.List.Find
import QuantityQuery.Parser.Detector
import QuantityQuery.Proofs.Detection.Scan

/-!
# Phrases that a separator keeps apart

A separator is a character on which nothing depends that a scan looks for: it stands in
no spelling, goes on no word and no number, and is no sign. What is on one side of it
then has no part in what is found on the other side (`Catalogue.scanFrom_separator`), so
the quantities of phrases with separators between them are those of the phrases, one
after the other, and the expression for them is put together from the expressions for
the phrases (`Detector.synthesize_phrases`).

* `Catalogue.Separates`: what is asked of a separator;
* `Before.Alike`: two places that a scan goes on from in the same way.
-/

namespace QuantityQuery

/-- A character that keeps phrases apart. -/
structure Catalogue.Separates (c : Catalogue) (sep : Char) : Prop where
  lowercase_eq : lowercaseChar sep = [sep]
  not_alphanumeric : isAlphanumeric sep = false
  not_blank : isBlank sep = false
  ne_point : sep ≠ '.'
  ne_comma : sep ≠ ','
  ne_hyphen : sep ≠ '-'
  not_mem_variant : ∀ f ∈ c.fields, ∀ u ∈ f.units, ∀ v ∈ u.variants, sep ∉ lowercase v.toList

/-! ### What stands before a place -/

/-- From both places a scan goes on in the same way. -/
structure Before.Alike (b b' : Before) : Prop where
  isFree : b.isFree = b'.isFree
  isSigned : b.isSigned = b'.isSigned
  isSigned_push : ∀ ch, (b.push ch).isSigned = (b'.push ch).isSigned

namespace Before

variable {b b' : Before}

theorem Alike.push (h : b.Alike b') (ch : Char) : (b.push ch).Alike (b'.push ch) where
  isFree := rfl
  isSigned := h.isSigned_push ch
  -- Two characters further on, nothing before them is in view.
  isSigned_push := fun _ => rfl

theorem Alike.pushAll (h : b.Alike b') (text : List Char) :
    (b.pushAll text).Alike (b'.pushAll text) := by
  induction text generalizing b b' with
  | nil => exact h
  | cons ch rest ih => exact ih (h.push ch)

end Before

namespace Catalogue

variable {c : Catalogue} {sep : Char}

/-- After a separator a scan goes on as at the beginning of a text. -/
theorem Separates.alike (h : c.Separates sep) (b : Before) : (b.push sep).Alike .start where
  isFree := by
    simp [Before.isFree, Before.push, Before.start, h.not_alphanumeric, h.ne_point, h.ne_comma]
  isSigned := by simp [Before.isSigned, Before.push, Before.start, h.ne_hyphen]
  isSigned_push := fun ch => by
    simp [Before.isSigned, Before.push, Before.start, h.not_alphanumeric]

theorem readQuantity_congr {b b' : Before} (h : b.isSigned = b'.isSigned) (text : List Char) :
    c.readQuantity b text = c.readQuantity b' text := by
  rw [readQuantity, readQuantity, h]

theorem scanFrom_congr {b b' : Before} (h : b.Alike b') (text : List Char) :
    c.scanFrom b text = c.scanFrom b' text := by
  fun_induction scanFrom c b text generalizing b' with
  | case1 b => rw [scanFrom]
  | case2 b ch rest hstart found size hread ih =>
    rw [scanFrom, if_pos (h.isFree ▸ hstart), ← readQuantity_congr h.isSigned, hread,
      ih (h.pushAll _)]
  | case3 b ch rest hstart ih =>
    rw [scanFrom, if_neg (h.isFree ▸ hstart), ih (h.push ch)]

end Catalogue

/-! ### What stands after a place -/

namespace Literal

variable {sep : Char}

/-- Before a separator a number is read as at the end of a text. -/
theorem read_append (hdigit : sep.isDigit = false) (hpoint : sep ≠ '.') (hcomma : sep ≠ ',')
    (text rest : List Char) : read (text ++ sep :: rest) = read text := by
  have hspan : spanDigits (text ++ sep :: rest) =
      ((spanDigits text).1, (spanDigits text).2 ++ sep :: rest) := by
    rw [spanDigits, takeWhile_append_cons hdigit, dropWhile_append_cons hdigit]
    rfl
  rw [read, read, hspan]
  obtain ⟨digits, after⟩ := spanDigits text
  -- Decimals are a point with a digit after it: the separator is neither of them.
  rcases after with _ | ⟨point, _ | ⟨next, more⟩⟩
  · cases rest <;> simp [hpoint, hcomma]
  · simp [hdigit]
  · simp only [List.cons_append]
    rw [← List.cons_append, takeWhile_append_cons hdigit]

/-- A text begins with what is read as a number. -/
theorem text_prefix (text : List Char) : (read text).text <+: text := by
  have hdigits : (spanDigits text).1 <+: text := List.takeWhile_prefix _
  have hsplit : text = (spanDigits text).1 ++ (spanDigits text).2 :=
    List.takeWhile_append_dropWhile.symm
  rw [read]
  generalize spanDigits text = span at hdigits hsplit ⊢
  obtain ⟨digits, after⟩ := span
  rcases after with _ | ⟨point, _ | ⟨next, more⟩⟩
  · exact hdigits
  · exact hdigits
  · dsimp only at hsplit ⊢
    split
    case isTrue =>
      rw [hsplit, List.prefix_append_right_inj, List.cons_prefix_cons]
      exact ⟨rfl, List.takeWhile_prefix _⟩
    case isFalse => exact hdigits

end Literal

theorem Spelling.fits_append {s : Spelling} {sep : Char} (hmem : sep ∉ s.letters)
    (hsep : isAlphanumeric sep = false) (text rest : List Char) :
    s.fits (text ++ sep :: rest) = s.fits text := by
  rw [Bool.eq_iff_iff, fits_iff, fits_iff]
  constructor
  · rintro ⟨after, heq, hends⟩
    -- The separator is none of the letters, so they end before it.
    rcases List.append_eq_append_iff.1 heq with ⟨more, hletters, hmore⟩ | ⟨more, rfl, rfl⟩
    · cases more with
      | nil => exact ⟨[], by simpa using hletters.symm, fun _ _ _ => stops_nil⟩
      | cons d more =>
        obtain ⟨rfl, -⟩ := List.cons.inj hmore
        exact absurd (by simp [hletters]) hmem
    · exact ⟨more, rfl, fun ch hch hword => (stops_append_cons hsep).1 (hends ch hch hword)⟩
  · rintro ⟨after, rfl, hends⟩
    refine ⟨after ++ sep :: rest, List.append_assoc .., fun ch hch hword => ?_⟩
    exact (stops_append_cons hsep).2 (hends ch hch hword)

namespace Catalogue

variable {c : Catalogue} {sep : Char}

theorem Separates.not_mem_letters (h : c.Separates sep) {s : Spelling} (hs : s ∈ c.spellings) :
    sep ∉ s.letters := by
  obtain ⟨f, hf, u, hu, v, hv, rfl⟩ := mem_spellings.1 hs
  exact h.not_mem_variant f hf u hu v hv

theorem Separates.isDigit (h : c.Separates sep) : sep.isDigit = false :=
  Bool.eq_false_iff.2 fun hdigit =>
    Bool.eq_false_iff.1 h.not_alphanumeric (isAlphanumeric_of_isDigit hdigit)

theorem spellingAt?_append (h : c.Separates sep) (text rest : List Char) :
    c.spellingAt? (text ++ sep :: rest) = c.spellingAt? text :=
  List.find?_congr fun _ hs =>
    Spelling.fits_append (h.not_mem_letters hs) h.not_alphanumeric text rest

theorem unitAfter?_append (h : c.Separates sep) (text rest : List Char) :
    c.unitAfter? (text ++ sep :: rest) = c.unitAfter? text := by
  rw [unitAfter?, unitAfter?, takeWhile_append_cons h.not_blank,
    dropWhile_append_cons h.not_blank, spellingAt?_append h]

theorem readQuantity_append (h : c.Separates sep) (b : Before) (text rest : List Char) :
    c.readQuantity b (text ++ sep :: rest) = c.readQuantity b text := by
  have hsize := (Literal.text_prefix text).length_le
  rw [readQuantity, readQuantity, Literal.read_append h.isDigit h.ne_point h.ne_comma,
    List.drop_append_of_le_length hsize]
  simp only [unitAfter?_append h]

/-- A quantity is in the text that it is read from. -/
theorem readQuantity_snd_le (b : Before) (text : List Char) :
    (c.readQuantity b text).2 ≤ text.length := by
  have hsize := (Literal.text_prefix text).length_le
  rw [readQuantity]
  split
  · exact hsize
  · split
    · exact hsize
    · split
      · exact hsize
      · next s skipped hunit =>
        obtain ⟨blanks, after, hrest, rfl, -⟩ := unitAfter?_eq_some hunit
        have hlength := congrArg List.length hrest
        simp only [List.length_drop, List.length_append] at hlength ⊢
        omega

/-- What a scan finds before a separator and what it finds after it are found apart. -/
theorem scanFrom_separator (h : c.Separates sep) (b : Before) (text rest : List Char) :
    c.scanFrom b (text ++ sep :: rest) = c.scanFrom b text ++ c.scanFrom .start rest := by
  fun_induction scanFrom c b text with
  | case1 b =>
    rw [List.nil_append, List.nil_append, scanFrom, if_neg (by simp [h.isDigit])]
    exact scanFrom_congr (h.alike b) rest
  | case2 b ch more hstart found size hread ih =>
    have hsize : size - 1 ≤ more.length := by
      have := readQuantity_snd_le (c := c) b (ch :: more)
      rw [hread, List.length_cons] at this
      omega
    rw [List.cons_append, scanFrom, if_pos hstart, ← List.cons_append, readQuantity_append h,
      hread]
    dsimp only
    rw [List.take_append_of_le_length hsize, List.drop_append_of_le_length hsize, ih,
      List.append_assoc]
  | case3 b ch more hstart ih => rw [List.cons_append, scanFrom, if_neg hstart, ih]

/-! ### Phrases -/

theorem scan_separator (h : c.Separates sep) (p q : String) :
    c.scan (p ++ String.singleton sep ++ q) = c.scan p ++ c.scan q := by
  have hlower : lowercase (p ++ String.singleton sep ++ q).toList =
      lowercase p.toList ++ sep :: lowercase q.toList := by
    simp [lowercase, h.lowercase_eq]
  rw [scan, hlower, scanFrom_separator h]
  rfl

theorem scan_empty : c.scan "" = [] := by
  have hlower : lowercase "".toList = [] := rfl
  rw [scan, hlower, scanFrom.eq_def]

theorem scan_phrases (h : c.Separates sep) (phrases : List String) :
    c.scan ((String.singleton sep).intercalate phrases) = phrases.flatMap c.scan := by
  induction phrases with
  | nil => rw [String.intercalate_nil, scan_empty, List.flatMap_nil]
  | cons p rest ih =>
    cases rest with
    | nil => rw [String.intercalate_singleton, List.flatMap_singleton]
    | cons q rest =>
      rw [String.intercalate_cons_cons, scan_separator h, ih, List.flatMap_cons (x := p)]

end Catalogue

/-! ### Expressions for phrases -/

/-- Expressions one after the other, and the expression for all documents where there are none. -/
def concatExpressions : List String → String
  | [] => matchAll
  | expressions => String.join expressions

/-- A clause has a space at its end. -/
theorem AmountClause.getLast?_text (clause : AmountClause) :
    clause.text.toList.getLast? = some ' ' := by
  cases clause <;> rw [text, String.toList_append, List.getLast?_append] <;> rfl

section

variable {clauses : List AmountClause}

theorem expressionOf_of_ne_nil (h : clauses ≠ []) :
    expressionOf clauses = String.join (clauses.map AmountClause.text) := by
  cases clauses with
  | nil => exact absurd rfl h
  | cons clause rest => rfl

/-- The expression of clauses has a space at its end, and so is not the one for all documents. -/
theorem expressionOf_ne_matchAll (h : clauses ≠ []) : expressionOf clauses ≠ matchAll := by
  intro heq
  have hlast : (expressionOf clauses).toList.getLast? = some ' ' := by
    obtain ⟨last, earlier, hreverse⟩ :=
      List.exists_cons_of_ne_nil (mt List.reverse_eq_nil_iff.1 h)
    rw [expressionOf_of_ne_nil h, String.toList_join, List.flatMap_map, List.getLast?_flatMap,
      hreverse, List.findSome?_cons, AmountClause.getLast?_text]
  rw [heq] at hlast
  exact absurd hlast (by decide)

end

/-- The expressions of those lists of clauses that are not empty. -/
def ownExpressions (parts : List (List AmountClause)) : List String :=
  (parts.map expressionOf).filter (· ≠ matchAll)

theorem ownExpressions_cons (part : List AmountClause) (parts : List (List AmountClause)) :
    ownExpressions (part :: parts) =
      if part = [] then ownExpressions parts else expressionOf part :: ownExpressions parts := by
  rw [ownExpressions, List.map_cons, List.filter_cons]
  by_cases hpart : part = []
  · subst hpart
    rw [if_neg (by simp [expressionOf]), if_pos rfl]
    rfl
  · rw [if_pos (by simpa using expressionOf_ne_matchAll hpart), if_neg hpart]
    rfl

theorem ownExpressions_eq_nil_iff (parts : List (List AmountClause)) :
    ownExpressions parts = [] ↔ parts.flatten = [] := by
  induction parts with
  | nil => simp [ownExpressions]
  | cons part parts ih =>
    rw [ownExpressions_cons]
    split <;> simp_all

theorem join_ownExpressions (parts : List (List AmountClause)) :
    String.join (ownExpressions parts) = String.join (parts.flatten.map AmountClause.text) := by
  induction parts with
  | nil => rfl
  | cons part parts ih =>
    rw [ownExpressions_cons, List.flatten_cons, List.map_append, String.join_append, ← ih]
    split
    case isTrue hpart => simp [hpart]
    case isFalse hpart => rw [String.join_cons, expressionOf_of_ne_nil hpart]

/-- The expression of some lists of clauses together is put together from their own. -/
theorem expressionOf_flatten (parts : List (List AmountClause)) :
    expressionOf parts.flatten = concatExpressions (ownExpressions parts) := by
  by_cases hnil : parts.flatten = []
  · rw [hnil, (ownExpressions_eq_nil_iff parts).2 hnil]
    rfl
  · obtain ⟨first, more, hown⟩ :=
      List.exists_cons_of_ne_nil (mt (ownExpressions_eq_nil_iff parts).1 hnil)
    rw [expressionOf_of_ne_nil hnil, ← join_ownExpressions, hown]
    rfl

namespace Detector

variable (d : Detector)

/-- The expressions for those phrases that have quantities in them. -/
def phraseExpressions (phrases : List String) : List String :=
  (phrases.map d.synthesize).filter (· ≠ matchAll)

/-- The quantities of two phrases with a separator between them are those of the one and then those
    of the other. The expression for phrases with separators between them is made of the
    expressions for the phrases in their order, whatever that is. -/
theorem synthesize_phrases {sep : Char} (h : d.catalogue.Separates sep) :
    (∀ p q : String, d.detect (p ++ String.singleton sep ++ q) = d.detect p ++ d.detect q) ∧
    (∀ phrases : List String, d.synthesize ((String.singleton sep).intercalate phrases) =
      concatExpressions (d.phraseExpressions phrases)) ∧
    ∀ phrases reordered : List String, reordered.Perm phrases →
      ∃ pieces, pieces.Perm (d.phraseExpressions phrases) ∧
        d.synthesize ((String.singleton sep).intercalate reordered) = concatExpressions pieces := by
  have hphrases : ∀ phrases : List String,
      d.synthesize ((String.singleton sep).intercalate phrases) =
        concatExpressions (d.phraseExpressions phrases) := by
    intro phrases
    have hparts := expressionOf_flatten
      (phrases.map fun p => (d.detect p).flatMap (d.catalogue.clauses d.style))
    rw [← List.flatMap_def, ← List.flatMap_assoc, ownExpressions, List.map_map] at hparts
    rw [synthesize, detect, Catalogue.scan_phrases h]
    exact hparts
  refine ⟨Catalogue.scan_separator h, hphrases, fun phrases reordered hperm => ?_⟩
  exact ⟨_, (hperm.map d.synthesize).filter _, hphrases reordered⟩

theorem synthesize_phrases_bar :
    let d : Detector :=
      ⟨"qty", .boost, ⟨[⟨"capacity", none, [⟨"gigabyte", ["GB"], none, none⟩]⟩]⟩, {}⟩
    d.catalogue.Separates '|' ∧
      (∀ p q : String, d.detect (p ++ String.singleton '|' ++ q) = d.detect p ++ d.detect q) ∧
      (∀ phrases : List String, d.synthesize ((String.singleton '|').intercalate phrases) =
        concatExpressions (d.phraseExpressions phrases)) ∧
      ∀ phrases reordered : List String, reordered.Perm phrases →
        ∃ pieces, pieces.Perm (d.phraseExpressions phrases) ∧
          d.synthesize ((String.singleton '|').intercalate reordered) =
            concatExpressions pieces :=
  have h : Catalogue.Separates _ '|' :=
    ⟨by decide, by decide, by decide, by decide, by decide, by decide, by decide +kernel⟩
  ⟨h, synthesize_phrases _ h⟩

end Detector

end QuantityQuery
