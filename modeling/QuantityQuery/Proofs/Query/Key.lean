import QuantityQuery.Proofs.Number.Shortest
import QuantityQuery.Proofs.Text.Quoted
import QuantityQuery.Query.Node

/-!
# Keys of conditions

The key of a condition determines the condition, so that what is kept under a key
was found by the same condition. Names of fields are free texts and stand in a key
as they are; a key is therefore taken apart from its end, where numbers and quoted
texts show how far they reach.

* `TermQuery.key_inj`: the field and the term, for terms that are numbers;
* `RangeQuery.key_inj`: the field and all four bounds;
* `TermQuery.key_ne_key`: a term and a range never share a key;
* `key_eq_key_iff`: all of this together, and that a boost has no part in a key.
-/

namespace QuantityQuery

/-! ### Bounds -/

namespace Bound

/-- The description of a bound that is a number: a name, and a text between parentheses. -/
structure Describes (b : Bound) (name text : List Char) : Prop where
  toList_describe : b.describe.toList = name ++ '(' :: text ++ [')']
  open_not_mem : '(' ∉ text
  quote_not_mem : '"' ∉ text

theorem describes_whole (i : Int) :
    Describes (whole i) ['L', 'o', 'n', 'g'] (toString i).toList := by
  -- Beside its digits a whole number has at most a minus, no parenthesis and no quote.
  have hmem : ∀ c, isNumeralChar c = false → c ∉ (toString i).toList := by
    intro c hc h
    rw [toList_toString_int, List.mem_append] at h
    rcases h with h | h
    · split at h
      · rw [List.mem_singleton.1 h] at hc; cases hc
      · cases h
    · rw [isNumeralChar_of_isDigit (isDigit_of_mem_decimalDigits h)] at hc; cases hc
  exact ⟨by simp [describe], hmem _ (by decide), hmem _ (by decide)⟩

theorem describes_real (x : Double) :
    Describes (real x) ['D', 'o', 'u', 'b', 'l', 'e'] (Layout.debug.write x).toList := by
  have hmem : ∀ c, (isNumeralChar c || ['N', 'a', 'i', 'n', 'f'].contains c) = false →
      c ∉ (Layout.debug.write x).toList := by
    intro c hc h
    rw [Bool.or_eq_false_iff] at hc
    rcases Layout.debug.mem_write (by decide) (.inl rfl) x h with h | h
    · rw [hc.1] at h; cases h
    · rw [← List.contains_iff_mem, hc.2] at h; cases h
  exact ⟨by simp [describe], hmem _ (by decide), hmem _ (by decide)⟩

theorem toList_describe_text (s : String) :
    (text s).describe.toList =
      ['S', 't', 'r', 'i', 'n', 'g', '('] ++ '"' :: s.toList.flatMap quoteChar ++ ['"', ')'] := by
  simp [describe, quote]

theorem Describes.inj {a b : Bound} {name name' text text' x y : List Char}
    (ha : Describes a name text) (hb : Describes b name' text')
    (h : x ++ a.describe.toList = y ++ b.describe.toList) :
    x ++ name = y ++ name' ∧ text = text' := by
  simp only [ha.toList_describe, hb.toList_describe, ← List.append_assoc,
    List.append_left_inj] at h
  exact append_cons_inj ha.open_not_mem hb.open_not_mem h

/-- A number is not described as a text is. -/
theorem Describes.ne_text {a : Bound} {name text x y : List Char} (ha : Describes a name text)
    (s : String) : x ++ a.describe.toList ≠ y ++ (Bound.text s).describe.toList := by
  intro h
  -- Before the closing parenthesis a text has its quote, a number none.
  rw [ha.toList_describe, toList_describe_text, List.append_cons _ '"' [')'], ← List.append_assoc,
    ← List.append_assoc y, List.append_left_inj] at h
  have hlast := congrArg List.getLast? h
  rw [← List.append_assoc x, List.getLast?_append, List.getLast?_cons, Option.some_or,
    ← List.append_assoc y, List.getLast?_concat] at hlast
  have hmem : '"' ∈ '(' :: text :=
    List.mem_of_getLast? (by rw [List.getLast?_cons, hlast])
  rcases List.mem_cons.1 hmem with h | h
  · exact absurd h (by decide)
  · exact ha.quote_not_mem h

/-- From its end, a text shows which bound is described there. -/
theorem append_describe_inj {a b : Bound} {x y : List Char}
    (h : x ++ a.describe.toList = y ++ b.describe.toList) : x = y ∧ a = b := by
  -- Both numbers end in one parenthesis; their names differ in the last letter.
  have hnames : x ++ ['L', 'o', 'n', 'g'] ≠ y ++ ['D', 'o', 'u', 'b', 'l', 'e'] ∧
      x ++ ['D', 'o', 'u', 'b', 'l', 'e'] ≠ y ++ ['L', 'o', 'n', 'g'] := by
    constructor <;> exact fun h => by simpa using congrArg List.getLast? h
  cases a with
  | whole i =>
    cases b with
    | whole j =>
      obtain ⟨hx, hi⟩ := (describes_whole i).inj (describes_whole j) h
      exact ⟨List.append_left_inj _ |>.1 hx,
        congrArg whole (toString_int_injective (String.toList_inj.1 hi))⟩
    | real z => exact absurd ((describes_whole i).inj (describes_real z) h).1 hnames.1
    | text s => exact absurd h ((describes_whole i).ne_text s)
  | real z =>
    cases b with
    | whole j => exact absurd ((describes_real z).inj (describes_whole j) h).1 hnames.2
    | real w =>
      obtain ⟨hx, hz⟩ := (describes_real z).inj (describes_real w) h
      exact ⟨List.append_left_inj _ |>.1 hx,
        congrArg real (Layout.debug.write_injective (by decide) (.inl rfl)
          (String.toList_inj.1 hz))⟩
    | text s => exact absurd h ((describes_real z).ne_text s)
  | text s =>
    cases b with
    | whole j => exact absurd h.symm ((describes_whole j).ne_text s)
    | real z => exact absurd h.symm ((describes_real z).ne_text s)
    | text t =>
      simp only [toList_describe_text, ← List.append_assoc, List.append_left_inj] at h
      obtain ⟨hx, hs⟩ := append_quote_inj (by simp) (by simp) h
      exact ⟨List.append_left_inj _ |>.1 hx, congrArg text (String.toList_inj.1 hs)⟩

theorem append_describeOption_inj {a b : Option Bound} {x y : List Char}
    (h : x ++ (describeOption describe a).toList = y ++ (describeOption describe b).toList) :
    x = y ∧ a = b := by
  have hsome : ∀ c : Bound, (describeOption describe (some c)).toList =
      ['S', 'o', 'm', 'e', '('] ++ c.describe.toList ++ [')'] := fun c => by
    simp [describeOption]
  cases a with
  | none =>
    cases b with
    | none => exact ⟨List.append_left_inj _ |>.1 h, rfl⟩
    | some b =>
      rw [hsome, describeOption] at h
      simpa [List.getLast?_cons] using congrArg List.getLast? h
  | some a =>
    cases b with
    | none =>
      rw [hsome, describeOption] at h
      simpa [List.getLast?_cons] using congrArg List.getLast? h
    | some b =>
      simp only [hsome, ← List.append_assoc, List.append_left_inj] at h
      obtain ⟨hx, hab⟩ := append_describe_inj h
      exact ⟨List.append_left_inj _ |>.1 hx, congrArg some hab⟩

end Bound

/-! ### Conditions -/

/-- The keys of two terms that are finite numbers are equal only for one field and term. -/
theorem TermQuery.key_inj {q r : TermQuery} (hq : q.value?.isSome) (hr : r.value?.isSome)
    (h : q.key = r.key) : q.field = r.field ∧ q.term = r.term := by
  -- A field can have colons, a number has none: the last colon of the key is the one before it.
  have hcolon : ∀ {q : TermQuery}, q.value?.isSome → ':' ∉ q.term.toList := by
    intro q hq hmem
    obtain ⟨x, hx⟩ := Option.isSome_iff_exists.1 hq
    obtain ⟨hread, hfinite⟩ := Option.filter_eq_some_iff.1 hx
    exact absurd (isNumeralChar_of_readBinary? hread hfinite _ hmem) (by decide)
  have hlist := String.toList_inj.2 h
  simp only [key, String.toList_append] at hlist
  obtain ⟨hfield, hterm⟩ := append_cons_inj (hcolon hq) (hcolon hr)
    (x := ['t', 'e', 'r', 'm', ':'] ++ q.field.toList)
    (y := ['t', 'e', 'r', 'm', ':'] ++ r.field.toList) (by simpa using hlist)
  exact ⟨String.toList_inj.1 (List.append_right_inj _ |>.1 hfield), String.toList_inj.1 hterm⟩

/-- The keys of two ranges are equal only for one field and the same bounds. -/
theorem RangeQuery.key_inj {q r : RangeQuery} (h : q.key = r.key) :
    q.field = r.field ∧ q.bounds.gte = r.bounds.gte ∧ q.bounds.gt = r.bounds.gt ∧
      q.bounds.lte = r.bounds.lte ∧ q.bounds.lt = r.bounds.lt := by
  have hlist := String.toList_inj.2 h
  unfold key at hlist
  simp only [String.toList_append] at hlist
  -- The four bounds come off the end one by one, each with its mark before it.
  obtain ⟨hlist, hlt⟩ := Bound.append_describeOption_inj hlist
  obtain ⟨hlist, hlte⟩ := Bound.append_describeOption_inj (List.append_left_inj _ |>.1 hlist)
  obtain ⟨hlist, hgt⟩ := Bound.append_describeOption_inj (List.append_left_inj _ |>.1 hlist)
  obtain ⟨hlist, hgte⟩ := Bound.append_describeOption_inj (List.append_left_inj _ |>.1 hlist)
  have hfield := List.append_right_inj _ |>.1 (List.append_left_inj _ |>.1 hlist)
  exact ⟨String.toList_inj.1 hfield, hgte, hgt, hlte, hlt⟩

theorem TermQuery.key_ne_key (q : TermQuery) (r : RangeQuery) : q.key ≠ r.key := by
  have hq : q.key.toList.head? = some 't' := by
    simp only [key, String.append_assoc, String.toList_append]
    rfl
  have hr : r.key.toList.head? = some 'r' := by
    unfold RangeQuery.key
    simp only [String.append_assoc, String.toList_append]
    rfl
  intro h
  rw [h, hr] at hq
  cases hq

/-- Keys tell conditions apart, whatever their boosts are: two terms that are finite numbers have
    one key exactly if they have one field and one term, two ranges exactly if they have one field
    and the same bounds, and no term has the key of a range. -/
theorem key_eq_key_iff :
    (∀ q r : TermQuery, q.value?.isSome → r.value?.isSome →
      (q.key = r.key ↔ q.field = r.field ∧ q.term = r.term)) ∧
    (∀ q r : RangeQuery, q.key = r.key ↔
      q.field = r.field ∧ q.bounds.gte = r.bounds.gte ∧ q.bounds.gt = r.bounds.gt ∧
        q.bounds.lte = r.bounds.lte ∧ q.bounds.lt = r.bounds.lt) ∧
    ∀ (q : TermQuery) (r : RangeQuery), q.key ≠ r.key := by
  refine ⟨fun q r hq hr => ⟨TermQuery.key_inj hq hr, ?_⟩,
    fun q r => ⟨RangeQuery.key_inj, ?_⟩, TermQuery.key_ne_key⟩
  · rintro ⟨hfield, hterm⟩
    rw [TermQuery.key, TermQuery.key, hfield, hterm]
  · rintro ⟨hfield, hgte, hgt, hlte, hlt⟩
    unfold RangeQuery.key
    rw [hfield, hgte, hgt, hlte, hlt]

/-- Two ways to write one number are two terms, and have two keys. -/
theorem key_eq_key_iff_notations :
    let q : TermQuery := ⟨"size:gte=", "42", 1⟩
    let r : TermQuery := ⟨"size:gte=", "4.2e1", 1⟩
    q.value?.isSome ∧ r.value?.isSome ∧ q.key ≠ r.key := by
  intro q r
  have hq : q.value?.isSome := by decide +kernel
  have hr : r.value?.isSome := by decide +kernel
  refine ⟨hq, hr, fun h => ?_⟩
  exact absurd ((key_eq_key_iff.1 q r hq hr).1 h).2 (by decide)

/-- A term that is no number can share the key of another term. It finds nothing and is never
    kept. -/
example : TermQuery.key ⟨"size", "1:2", 1⟩ = TermQuery.key ⟨"size:1", "2", 1⟩ := by decide +kernel

end QuantityQuery
