import QuantityQuery.Proofs.Query.Embedding
import QuantityQuery.Proofs.Query.Parsing
import QuantityQuery.Proofs.Query.Wildcard

/-!
# Words with hyphens

A hyphen between the segments of a word is no minus sign as long as it goes on with the word.
In a word that begins with a letter it always does; in one that begins with a digit it does
before a digit only, and such a word also ends before signs that are used as numbers but are
no letters or digits. So some words fall apart at their hyphens, and what comes after the
hyphen is excluded (`Reading.ofText_hyphenate_iff`).

* `Hyphenated`: the segments of a word with hyphens;
* `StaysWhole`: the word is read as one term.
-/

namespace QuantityQuery

/-- The segments of a word with hyphens: letters and numbers, the first of them a letter or a
    digit. -/
structure Hyphenated (segments : List String) : Prop where
  two_le : 2 ≤ segments.length
  ne_empty : ∀ s ∈ segments, s ≠ ""
  alphanumeric : ∀ s ∈ segments, s.toList.all isAlphanumeric
  start : (segments.flatMap (·.toList)).head?.any isPieceChar

/-- The word of some segments. -/
def hyphenate (segments : List String) : String := "-".intercalate segments

/-- The word begins with a letter, or there are letters and digits only and every segment after
    the first one begins with a digit. -/
def StaysWhole (segments : List String) : Prop :=
  (segments.flatMap (·.toList)).head?.any isAlphabetic ∨
    (∀ s ∈ segments, s.toList.all isPieceChar) ∧
      ∀ s ∈ segments.tail, s.toList.head?.any Char.isDigit

instance (segments : List String) : Decidable (Hyphenated segments) :=
  decidable_of_iff
    (2 ≤ segments.length ∧ (∀ s ∈ segments, s ≠ "") ∧
      (∀ s ∈ segments, s.toList.all isAlphanumeric) ∧
      (segments.flatMap (·.toList)).head?.any isPieceChar)
    ⟨fun ⟨htwo, hne, hall, hstart⟩ => ⟨htwo, hne, hall, hstart⟩,
      fun ⟨htwo, hne, hall, hstart⟩ => ⟨htwo, hne, hall, hstart⟩⟩

instance (segments : List String) : Decidable (StaysWhole segments) :=
  inferInstanceAs (Decidable (_ ∨ _ ∧ _))

/-! ### Segments after each other -/

theorem intercalate_singleton_cons {α : Type} (d : α) (s : List α) (ss : List (List α)) :
    List.intercalate [d] (s :: ss) = s ++ ss.flatMap (d :: ·) := by
  induction ss generalizing s with
  | nil => simp
  | cons t ss ih => rw [List.intercalate_cons_cons, ih]; simp

theorem toList_hyphenate (s : String) (segments : List String) :
    (hyphenate (s :: segments)).toList = s.toList ++ segments.flatMap ('-' :: ·.toList) := by
  rw [hyphenate, String.toList_intercalate, List.map_cons]
  have hmark : "-".toList = ['-'] := rfl
  rw [hmark, intercalate_singleton_cons, List.flatMap_map]

namespace Token

variable {pointed : Bool} {c : Char} {segment rest : List Char} {segments : List String}

/-- Before anything but a point, a text goes on if its first character does and the rest does. -/
theorem spanNumeric_cons_eq_self_iff (hc : c ≠ '.') :
    spanNumeric pointed (c :: rest) = c :: rest ↔
      (c.isDigit || c = '_' || isAlphabetic c || (c = '-' && rest.head?.any Char.isDigit)) ∧
        spanNumeric pointed rest = rest := by
  rw [spanNumeric, if_neg (c := (c = '.' && _ && _) = true) (by simp [hc])]
  split
  · next h => simp [h]
  · next h => simp [h]

theorem spanNumeric_segment_eq_self_iff (hsegment : segment.all isAlphanumeric) :
    spanNumeric pointed (segment ++ rest) = segment ++ rest ↔
      segment.all isPieceChar ∧ spanNumeric pointed rest = rest := by
  induction segment with
  | nil => simp
  | cons c segment ih =>
    rw [List.all_cons, Bool.and_eq_true] at hsegment
    obtain ⟨hc, hsegment⟩ := hsegment
    have hgoes : (c.isDigit || c = '_' || isAlphabetic c ||
        (c = '-' && (segment ++ rest).head?.any Char.isDigit)) = isPieceChar c := by
      have hline : c ≠ '_' := ne_of_class hc (by decide)
      have hhyphen : c ≠ '-' := ne_of_class hc (by decide)
      simp [hline, hhyphen, isPieceChar, Bool.or_comm]
    rw [List.cons_append, spanNumeric_cons_eq_self_iff (ne_of_class hc (by decide)), hgoes,
      ih hsegment, List.all_cons, Bool.and_eq_true, and_assoc]

/-- Behind hyphens, segments go on if they are made of letters and digits and begin with digits. -/
theorem spanNumeric_segments_eq_self_iff (hne : ∀ s ∈ segments, s ≠ "")
    (hsegments : ∀ s ∈ segments, s.toList.all isAlphanumeric) :
    spanNumeric pointed (segments.flatMap ('-' :: ·.toList)) =
        segments.flatMap ('-' :: ·.toList) ↔
      ∀ s ∈ segments, s.toList.all isPieceChar ∧ s.toList.head?.any Char.isDigit := by
  induction segments with
  | nil => simp [spanNumeric]
  | cons s segments ih =>
    obtain ⟨hs, hne⟩ := List.forall_mem_cons.1 hne
    obtain ⟨hsegment, hsegments⟩ := List.forall_mem_cons.1 hsegments
    obtain ⟨d, more, hcons⟩ := List.exists_cons_of_ne_nil (mt String.toList_eq_nil_iff.1 hs)
    have hhead : (s.toList ++ segments.flatMap ('-' :: ·.toList)).head? = s.toList.head? := by
      rw [hcons]
      rfl
    have hgoes : ('-'.isDigit || '-' = '_' || isAlphabetic '-' ||
        ('-' = '-' && s.toList.head?.any Char.isDigit)) = s.toList.head?.any Char.isDigit :=
      rfl
    rw [List.flatMap_cons, List.cons_append, spanNumeric_cons_eq_self_iff (by decide), hhead, hgoes,
      spanNumeric_segment_eq_self_iff hsegment, ih hne hsegments, List.forall_mem_cons, ← and_assoc,
      and_comm (a := _ = true)]

theorem ofNumeric_of_hyphen {text : List Char} (h : '-' ∈ text) :
    ofNumeric text = term (String.ofList text) :=
  if_neg fun hall => absurd (List.all_eq_true.1 hall _ h) (by decide)

theorem ofNumeric_eq_term {text : List Char} {word : String} (h : ofNumeric text = term word) :
    String.ofList text = word := by
  unfold ofNumeric at h
  split at h
  · cases h
  · exact term.inj h

/-- A word of the language has no hyphen. -/
theorem ofWord_of_hyphen {text : List Char} (h : '-' ∈ text) :
    ofWord text = term (String.ofList text) := by
  refine ofWord_eq_term fun hreserved => ?_
  obtain ⟨word, hmem, hword⟩ := List.any_eq_true.1 hreserved
  have hhyphen : '-' ∈ word.toList := by
    rw [← of_decide_eq_true hword]
    exact List.mem_map.2 ⟨'-', h, by decide⟩
  have hnone : ∀ word ∈ reservedWords, '-' ∉ word.toList := by decide
  exact hnone word hmem hhyphen

end Token

/-! ### Words as one token -/

section

variable {c : Char} {rest : List Char}

/-- A text that begins with a letter and has nothing but characters of words is one term. -/
theorem fallsInto_letter (hc : isAlphabetic c) (hrest : ∀ d ∈ rest, isTermChar d)
    (hhyphen : '-' ∈ c :: rest) : FallsInto (c :: rest) [.term (String.ofList (c :: rest))] := by
  have hstart : Token.isNameStart c := by simp [Token.isNameStart, hc]
  have hname := Lexes.name hstart hrest stops_nil .nil
  rw [List.append_nil, Token.ofWord_of_hyphen hhyphen] at hname
  exact lexes_iff.1 hname

/-- A text that begins with a digit is one term if all of it goes on. -/
theorem fallsInto_digit_iff (hc : c.isDigit) (hhyphen : '-' ∈ c :: rest) :
    FallsInto (c :: rest) [.term (String.ofList (c :: rest))] ↔
      Token.spanNumeric false rest = rest := by
  rw [fallsInto_cons_iff (isBlank_of_isDigit hc) fun _ => Token.read_of_isDigit hc]
  constructor
  · rintro ⟨us, hts, -⟩
    have htoken := (List.cons.inj hts).1
    have htext := String.ofList_injective (Token.ofNumeric_eq_term htoken.symm)
    exact (List.cons.inj htext).2
  · intro hspan
    rw [hspan, Token.ofNumeric_of_hyphen hhyphen, List.drop_length]
    exact ⟨[], rfl, .nil⟩

end

namespace Hyphenated

variable {segments : List String} (h : Hyphenated segments)
include h

/-- The characters of the word are those of the segments, and hyphens. -/
theorem eq_hyphen_or {d : Char} (hd : d ∈ (hyphenate segments).toList) :
    d = '-' ∨ isAlphanumeric d := by
  cases segments with
  | nil => cases hd
  | cons s more =>
    have hall := List.forall_mem_cons.1 h.alphanumeric
    rw [toList_hyphenate, List.mem_append, List.mem_flatMap] at hd
    rcases hd with hd | ⟨t, ht, hd⟩
    · exact .inr (List.all_eq_true.1 hall.1 d hd)
    · exact (List.mem_cons.1 hd).imp_right (List.all_eq_true.1 (hall.2 t ht) d)

theorem isTermChar_of_mem {d : Char} (hd : d ∈ (hyphenate segments).toList) : isTermChar d := by
  rcases h.eq_hyphen_or hd with rfl | hd
  · decide
  · simp [isTermChar, isTermStart, hd]

theorem isWildcard_eq_false : isWildcard (hyphenate segments) = false := by
  refine List.any_eq_false.2 fun d hd => ?_
  rcases h.eq_hyphen_or hd with rfl | hd
  · decide
  · simp [ne_of_class hd (show isAlphanumeric '*' = false by decide),
      ne_of_class hd (show isAlphanumeric '?' = false by decide)]

/-- The word is one term exactly if it stays whole. -/
theorem fallsInto_iff :
    FallsInto (hyphenate segments).toList [.term (hyphenate segments)] ↔ StaysWhole segments := by
  obtain ⟨s, more, rfl⟩ : ∃ s more, segments = s :: more :=
    List.exists_cons_of_length_pos (Nat.lt_of_lt_of_le Nat.two_pos h.two_le)
  have hne := List.forall_mem_cons.1 h.ne_empty
  have hall := List.forall_mem_cons.1 h.alphanumeric
  obtain ⟨c, first, hs⟩ := List.exists_cons_of_ne_nil (mt String.toList_eq_nil_iff.1 hne.1)
  have hword : (hyphenate (s :: more)).toList = c :: (first ++ more.flatMap ('-' :: ·.toList)) := by
    rw [toList_hyphenate, hs, List.cons_append]
  have hhyphen : '-' ∈ c :: (first ++ more.flatMap ('-' :: ·.toList)) := by
    obtain ⟨t, others, rfl⟩ : ∃ t others, more = t :: others :=
      List.exists_cons_of_length_pos (Nat.lt_of_succ_lt_succ h.two_le)
    simp
  have hhead : ((s :: more).flatMap (·.toList)).head? = some c := by
    rw [List.flatMap_cons, hs]
    rfl
  have hstart := h.start
  rw [hhead, Option.any_some] at hstart
  rw [StaysWhole, hhead, Option.any_some, hword, ← String.ofList_toList (s := hyphenate _), hword]
  cases hletter : isAlphabetic c with
  | true =>
    have hrest : ∀ d ∈ first ++ more.flatMap ('-' :: ·.toList), isTermChar d := fun d hd =>
      h.isTermChar_of_mem (hword ▸ List.mem_cons_of_mem c hd)
    exact iff_of_true (fallsInto_letter hletter hrest hhyphen) (.inl rfl)
  | false =>
    have hdigit : c.isDigit := by simpa [isPieceChar, hletter] using hstart
    rw [hs, List.all_cons, Bool.and_eq_true] at hall
    rw [fallsInto_digit_iff hdigit hhyphen, Token.spanNumeric_segment_eq_self_iff hall.1.2,
      Token.spanNumeric_segments_eq_self_iff hne.2 hall.2, List.forall_mem_cons, hs,
      List.all_cons, List.tail_cons]
    simp only [forall_and, hstart, Bool.true_and, Bool.false_eq_true, false_or, and_assoc]

end Hyphenated

/-- Exactly the words that stay whole are read as one term. They are accepted and ask for
    themselves: nothing is excluded. -/
theorem Reading.ofText_hyphenate_iff {segments : List String} (h : Hyphenated segments) :
    ((ofText (hyphenate segments)).fault = none ∧
        (ofText (hyphenate segments)).tokens = [.term (hyphenate segments)] ↔
      StaysWhole segments) ∧
      (StaysWhole segments → ∀ field op, Node.ofText field op (hyphenate segments) =
        .ok (.term ⟨field, hyphenate segments, 1⟩)) := by
  refine ⟨Reading.ofText_iff.trans h.fallsInto_iff, fun hwhole field op => ?_⟩
  have hlexes := (h.fallsInto_iff.2 hwhole).lexes
  have hwritten : (Chain.one (.leaf .plain (.term none (hyphenate segments) 1))).WrittenAs
      [.term (hyphenate segments)] :=
    .one (.leaf .plain (.value (.term h.isWildcard_eq_false) .absent))
  exact hlexes.ofText_eq_ok hwritten

/-- A date begins with a digit, as all its segments do. -/
theorem Reading.ofText_hyphenate_date :
    Hyphenated ["2024", "01", "15"] ∧ StaysWhole ["2024", "01", "15"] ∧
      (ofText "2024-01-15").fault = none ∧ (ofText "2024-01-15").tokens = [.term "2024-01-15"] ∧
      ∀ field op, Node.ofText field op "2024-01-15" = .ok (.term ⟨field, "2024-01-15", 1⟩) := by
  have h : Hyphenated ["2024", "01", "15"] := by decide +kernel
  have hwhole : StaysWhole ["2024", "01", "15"] := by decide +kernel
  obtain ⟨hiff, hnode⟩ := Reading.ofText_hyphenate_iff h
  obtain ⟨hfault, htokens⟩ := hiff.2 hwhole
  exact ⟨h, hwhole, hfault, htokens, hnode hwhole⟩

/-- A word that begins with a digit is cut before a letter, and its end is excluded. -/
theorem Reading.ofText_hyphenate_television :
    Hyphenated ["4k", "tv"] ∧ hyphenate ["4k", "tv"] = "4k-tv" ∧
      (ofText "4k-tv").fault = none ∧
      (ofText "4k-tv").tokens = [.term "4k", .minus, .term "tv"] ∧
      ∀ field op, Node.ofText field op "4k-tv" =
        .ok (.bool [.term ⟨field, "4k", 1⟩, .bool [] [] [.term ⟨field, "tv", 1⟩]] [] []) := by
  have hfault : (ofText "4k-tv").fault = none := by decide +kernel
  have htokens : (ofText "4k-tv").tokens = [.term "4k", .minus, .term "tv"] := by decide +kernel
  have hlexes := (Reading.ofText_iff.1 ⟨hfault, htokens⟩).lexes
  have hfirst : (Chain.one (.leaf .plain (.term none "4k" 1))).WrittenAs [.term "4k"] :=
    .one (.leaf .plain (.value (.term (by decide)) .absent))
  have hlast : (Clause.leaf .excluded (.term none "tv" 1)).WrittenAs [.minus, .term "tv"] :=
    .leaf .minus (.value (.term (by decide)) .absent)
  refine ⟨by decide +kernel, rfl, hfault, htokens, fun field op => ?_⟩
  rw [hlexes.ofText_eq_ok (.link hfirst .beside hlast)]
  cases op <;> rfl

end QuantityQuery
