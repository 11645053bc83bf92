import QuantityQuery.Proofs.Query.Lexeme
import QuantityQuery.Query.Lexer

/-!
# What a lexer answers

A lexer that gives a token passes blanks and the characters of the token (`Lexer.Passes`), at
least one, and never goes beyond its text (`Lexer.IsIn`). Asked until it gives no token, it
answers as the text is read (`Lexer.answers_reading`): the tokens of the lexemes, one by one, and
then the end of the text or its fault. So there is at most one answer more than there are
characters (`Lexer.Answers.length_le`), and the text falls into blanks and the characters of
the tokens (`Reading.splits_readFrom`).
-/

namespace QuantityQuery

/-- The answers that give tokens, and then say why there are no more: a fault, or the end of the
    text. -/
def answersOf (fault : Option QueryError) : List Token → List Answer
  | [] => [match fault with
    | none => .ok none
    | some fault => .error fault]
  | token :: rest => .ok (some token) :: answersOf fault rest

theorem length_answersOf (fault : Option QueryError) (ts : List Token) :
    (answersOf fault ts).length = ts.length + 1 := by
  induction ts with
  | nil => rfl
  | cons token rest ih => exact congrArg (· + 1) ih

/-- Before the last answer, all are tokens. -/
theorem exists_token_of_mem_dropLast {fault : Option QueryError} {ts : List Token}
    {as : List Answer} (h : as <+: answersOf fault ts) :
    ∀ answer ∈ as.dropLast, ∃ token, answer = .ok (some token) := by
  induction ts generalizing as with
  | nil =>
    rcases List.prefix_cons_iff.1 h with rfl | ⟨more, rfl, hmore⟩
    · exact List.forall_mem_nil _
    · rw [List.prefix_nil.1 hmore]
      exact List.forall_mem_nil _
  | cons token rest ih =>
    rcases List.prefix_cons_iff.1 h with rfl | ⟨more, rfl, hmore⟩
    · exact List.forall_mem_nil _
    · cases more with
      | nil => exact List.forall_mem_nil _
      | cons answer more =>
        rw [List.dropLast_cons_cons]
        exact List.forall_mem_cons.2 ⟨⟨token, rfl⟩, ih hmore⟩

/-! ### Readings -/

namespace Reading

/-- What was read is all of a text: blanks and tokens in turn, and what is left. -/
structure Splits (r : Reading) (text : List Char) : Prop where
  text_eq : text = r.lexemes.flatMap (fun lexeme => lexeme.blanks ++ lexeme.text) ++ r.left
  isBlank_blanks : ∀ lexeme ∈ r.lexemes, ∀ c ∈ lexeme.blanks, isBlank c
  writtenAs : ∀ lexeme ∈ r.lexemes, lexeme.token.WrittenAs lexeme.text
  isBlank_left : r.fault = none → ∀ c ∈ r.left, isBlank c

/-- A lexeme before a reading. -/
theorem Splits.cons {r : Reading} {rest : List Char} (lexeme : Lexeme) (h : r.Splits rest)
    (hblanks : ∀ c ∈ lexeme.blanks, isBlank c) (htext : lexeme.token.WrittenAs lexeme.text) :
    Splits { r with lexemes := lexeme :: r.lexemes } (lexeme.blanks ++ lexeme.text ++ rest) where
  text_eq := by rw [List.flatMap_cons, List.append_assoc _ _ r.left, ← h.text_eq]
  isBlank_blanks := List.forall_mem_cons.2 ⟨hblanks, h.isBlank_blanks⟩
  writtenAs := List.forall_mem_cons.2 ⟨htext, h.writtenAs⟩
  isBlank_left := h.isBlank_left

theorem splits_readFrom (position : Nat) (text : List Char) :
    (readFrom position text).Splits text := by
  fun_induction readFrom position text with
  | case1 position text hblank =>
    exact ⟨rfl, List.forall_mem_nil _, List.forall_mem_nil _,
      fun _ => List.dropWhile_eq_nil_iff.1 hblank⟩
  | case2 => exact ⟨rfl, List.forall_mem_nil _, List.forall_mem_nil _, nofun⟩
  | case3 position text c rest hcons blanks start token size hread _ more ih =>
    obtain ⟨own, rest, rfl, rfl, hown⟩ := Token.exists_of_read hread
    rw [List.drop_left] at ih
    have htext : text = blanks ++ (c :: own) ++ rest := by
      rw [List.append_assoc, List.cons_append, ← hcons, List.takeWhile_append_dropWhile]
    have hsplits := ih.cons ⟨blanks, token, c :: own⟩
      (List.all_eq_true.1 List.all_takeWhile) hown
    rw [← htext] at hsplits
    simpa only [more, List.take_left, List.drop_left] using hsplits

/-- What a lexer answers that is asked for all of the text. -/
def answers (r : Reading) : List Answer := answersOf r.fault r.tokens

end Reading

theorem Token.WrittenAs.ne_nil {token : Token} {text : List Char} (h : token.WrittenAs text) :
    text ≠ [] := by
  rintro rfl
  cases h with
  | and h => cases h
  | or h => cases h
  | not h => cases h
  | upTo h => cases h

namespace Lexer

variable {l m : Lexer} {token : Token} {text : List Char} {as : List Answer}

/-! ### One answer -/

/-- The lexer stands in a text. -/
structure IsIn (l : Lexer) (text : List Char) : Prop where
  position_le : l.position ≤ text.length
  left_eq : l.left = text.drop l.position

/-- A lexer goes to `m` and passes `skipped`. -/
structure Skips (l : Lexer) (skipped : List Char) (m : Lexer) : Prop where
  left_eq : l.left = skipped ++ m.left
  position_eq : m.position = l.position + skipped.length

/-- A lexer goes to `m` and passes the blanks and a token: the characters after the blanks are
    those that the token is written with. -/
def Passes (l : Lexer) (token : Token) (m : Lexer) : Prop :=
  ∃ own, l.Skips (l.left.takeWhile isBlank ++ own) m ∧ token.WrittenAs own

theorem isIn_ofText (text : String) : (ofText text).IsIn text.toList := ⟨Nat.zero_le _, rfl⟩

theorem IsIn.of_skips {skipped : List Char} (hl : l.IsIn text) (h : l.Skips skipped m) :
    m.IsIn text := by
  have hdrop := hl.left_eq.symm.trans h.left_eq
  constructor
  · have hlength := congrArg List.length hdrop
    rw [List.length_drop, List.length_append] at hlength
    have := hl.position_le
    rw [h.position_eq]
    omega
  · rw [h.position_eq, ← List.drop_drop, hdrop, List.drop_left]

theorem Passes.position_lt (h : l.Passes token m) : l.position < m.position := by
  obtain ⟨own, hskips, hown⟩ := h
  have := List.length_pos_iff.2 hown.ne_nil
  rw [hskips.position_eq, List.length_append]
  omega

theorem Passes.length_lt (h : l.Passes token m) : m.left.length < l.left.length := by
  obtain ⟨own, hskips, hown⟩ := h
  have := List.length_pos_iff.2 hown.ne_nil
  rw [hskips.left_eq, List.length_append, List.length_append]
  omega

/-- A lexer gives the token that it passes, finds nothing but blanks, or meets a fault. -/
theorem next_cases (l : Lexer) :
    (∃ token m, l.next = (.ok (some token), m) ∧ l.Passes token m) ∨
    (∃ m, l.next = (.ok none, m) ∧ (∀ c ∈ l.left, isBlank c) ∧ l.Skips l.left m) ∨
    ∃ fault m skipped, l.next = (.error fault, m) ∧ l.Skips skipped m := by
  have hsplit := List.takeWhile_append_dropWhile (p := isBlank) (l := l.left)
  rcases hdrop : l.left.dropWhile isBlank with _ | ⟨c, rest⟩
  · rw [hdrop, List.append_nil] at hsplit
    refine .inr (.inl ⟨_, by simp only [next, hdrop]; rfl, List.dropWhile_eq_nil_iff.1 hdrop, ?_⟩)
    exact ⟨(List.append_nil _).symm, by rw [hsplit]⟩
  · rw [hdrop] at hsplit
    rcases hread : Token.read (l.position + (l.left.takeWhile isBlank).length) c rest with
      fault | ⟨token, size⟩
    · have hfault : ∃ m skipped, l.next = (.error fault, m) ∧ l.Skips skipped m := by
        by_cases hopen : fault = .unterminated
        · refine ⟨⟨_, []⟩, l.left, by simp only [next, hdrop, hread, hopen]; rfl, by simp, ?_⟩
          have hlength := congrArg List.length hsplit
          simp only [List.length_append, List.length_cons] at hlength ⊢
          omega
        · refine ⟨⟨_, c :: rest⟩, _, ?_, hsplit.symm, rfl⟩
          simp only [next, hdrop, hread]
      obtain ⟨m, skipped, h⟩ := hfault
      exact .inr (.inr ⟨fault, m, skipped, h⟩)
    · obtain ⟨own, rest, rfl, rfl, hown⟩ := Token.exists_of_read hread
      refine .inl ⟨token, _, by simp only [next, hdrop, hread]; rfl, c :: own, ⟨?_, ?_⟩, hown⟩
      · simpa using hsplit.symm
      · simp only [List.length_append, List.length_cons]
        omega

/-- A lexer stays in its text. -/
theorem IsIn.next (h : l.IsIn text) : l.next.2.IsIn text := by
  obtain ⟨token, m, hnext, own, hskips, -⟩ | ⟨m, hnext, -, hskips⟩ |
    ⟨fault, m, skipped, hnext, hskips⟩ := l.next_cases
  all_goals
    rw [hnext]
    exact h.of_skips hskips

theorem passes_of_next (h : l.next.1 = .ok (some token)) : l.Passes token l.next.2 := by
  obtain ⟨token', m, hnext, hpasses⟩ | ⟨m, hnext, -⟩ | ⟨fault, m, skipped, hnext, -⟩ := l.next_cases
  all_goals
    rw [hnext] at h
    cases h
  rwa [hnext]

/-! ### All answers -/

/-- What a lexer answers that is asked until it gives no token. -/
inductive Answers : Lexer → List Answer → Prop
  | token {l m : Lexer} {token : Token} {as : List Answer} : l.next = (.ok (some token), m) →
      Answers m as → Answers l (.ok (some token) :: as)
  | finish {l m : Lexer} : l.next = (.ok none, m) → Answers l [.ok none]
  | fault {l m : Lexer} {fault : QueryError} : l.next = (.error fault, m) → Answers l [.error fault]

/-- The lexemes that are before a lexer. -/
def reading (l : Lexer) : Reading := .readFrom l.position l.left

theorem reading_ofText (text : String) : (ofText text).reading = .ofText text := rfl

/-- A lexer gives the tokens of the lexemes before it. -/
theorem answers_reading (l : Lexer) : l.Answers l.reading.answers := by
  obtain ⟨position, text⟩ := l
  unfold reading
  fun_induction Reading.readFrom position text with
  | case1 position text hblank => exact .finish (by simp only [next, hblank]; rfl)
  | case2 position text c rest hcons blanks start fault hread =>
    have hnext : ∃ m, next ⟨position, text⟩ = (.error fault, m) := by
      simp only [next, hcons]
      cases fault <;> exact ⟨_, by rw [hread]⟩
    obtain ⟨m, hnext⟩ := hnext
    exact .fault hnext
  | case3 position text c rest hcons blanks start token size hread _ more ih =>
    refine .token (m := ⟨start + 1 + size, rest.drop size⟩) ?_ ih
    simp only [next, hcons]
    rw [hread]

/-- Every token takes a character, so there is at most one answer more than there are
    characters. -/
theorem Answers.length_le (h : l.Answers as) : as.length ≤ l.left.length + 1 := by
  induction h with
  | token hnext _ ih =>
    have := (passes_of_next (congrArg Prod.fst hnext)).length_lt
    rw [hnext] at this
    exact Nat.succ_le_succ (ih.trans this)
  | finish => exact Nat.le_add_left _ _
  | fault => exact Nat.le_add_left _ _

end Lexer

end QuantityQuery
