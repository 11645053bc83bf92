import Mathlib.Data.Rat.Floor
import QuantityQuery.Proofs.Catalogue.Basic
import QuantityQuery.Proofs.Detection.Expression
import QuantityQuery.Proofs.Detection.Separator
import QuantityQuery.Proofs.Number.Sum

/-!
# Expressions read backwards

An expression has nothing between its clauses but their own spaces, and a clause may have a
boost or not, and a range clause after it or not. All the same the clauses are found again
from their text: the name of a field ends at the first colon, an amount at the first
character that is no digit, and a boost at the first space (`AmountClause.text_append_inj`).
So an expression in boost style tells the fields, the amounts and the boost texts it was
written for (`Catalogue.expression_boost`).

* `Gap.distance_eq`: the distance of a gap is the floor of its value, cut at the largest
  amount;
* `Occurrence.exactText`, `Occurrence.rangeText`: what is written for a quantity, said
  with integers;
* `Catalogue.Measures`: a quantity is one of a unit of the catalogue.
-/

namespace QuantityQuery

/-! ### Clauses are found again -/

/-- Two texts that go on after the digits of a number have the same number and the same rest. -/
theorem decimalDigits_append_inj {m n : Nat} {x y : List Char} (hx : Stops Char.isDigit x)
    (hy : Stops Char.isDigit y) (h : decimalDigits m ++ x = decimalDigits n ++ y) :
    m = n ∧ x = y := by
  have hspan := congrArg spanDigits h
  rw [spanDigits_append (isDigits_decimalDigits m).2 hx,
    spanDigits_append (isDigits_decimalDigits n).2 hy] at hspan
  obtain ⟨hdigits, hrest⟩ := Prod.mk.inj hspan
  refine ⟨?_, hrest⟩
  rw [← digitsValue_decimalDigits m, hdigits, digitsValue_decimalDigits]

/-- A valid name of a field has no colon. -/
theorem Field.colon_not_mem {name : String} (h : nameFault? name = none) : ':' ∉ name.toList := by
  have hname := isName_of_nameFault? h
  cases hlist : name.toList with
  | nil => exact List.not_mem_nil
  | cons c more =>
    rw [hlist] at hname
    rintro hmem
    rcases List.mem_cons.1 hmem with rfl | hmore
    · rw [isName, Bool.and_eq_true] at hname
      exact absurd hname.1 (by decide)
    · exact absurd (isTermChar_of_isName hname hmore) (by decide)

/-- Boosts are their texts. -/
theorem Boost.text_injective : Function.Injective text := by
  rintro ⟨text, _⟩ ⟨_, _⟩ rfl
  rfl

namespace AmountClause

/-- What stands in a clause after its field and the colon. -/
def body : AmountClause → List Char
  | exact _ amount boost => decimalDigits amount ++ ((boostText boost).toList ++ [' '])
  | range _ low high =>
    '[' :: (decimalDigits low ++ ([' ', 'T', 'O', ' '] ++ (decimalDigits high ++ [']', ' '])))

theorem toList_text (clause : AmountClause) :
    clause.text.toList = clause.field.toList ++ ':' :: clause.body := by
  cases clause <;> simp [text, field, body, decimalDigits]

theorem space_not_mem_boostText (boost : Option Boost) : ' ' ∉ (boostText boost).toList := by
  cases boost with
  | none => exact List.not_mem_nil
  | some b =>
    have hplain := b.isBoost.1
    simp only [isPlainDecimal, Bool.and_eq_true, List.all_eq_true] at hplain
    rw [boostText, String.toList_append, List.mem_append, not_or]
    exact ⟨by decide, fun hmem => absurd (hplain.1.1.1.2 _ hmem) (by decide)⟩

theorem stops_isDigit_boostText (boost : Option Boost) (rest : List Char) :
    Stops Char.isDigit ((boostText boost).toList ++ ' ' :: rest) := by
  cases boost with
  | none => exact stops_cons.2 rfl
  | some b =>
    rw [boostText, String.toList_append]
    exact stops_cons.2 rfl

theorem boostText_inj {a b : Option Boost} (h : boostText a = boostText b) : a = b := by
  have hlist := String.toList_inj.2 h
  cases a with
  | none =>
    cases b with
    | none => rfl
    | some b => simp [boostText] at hlist
  | some a =>
    cases b with
    | none => simp [boostText] at hlist
    | some b =>
      have htext : a.text = b.text := by simpa [boostText, String.toList_inj] using hlist
      rw [Boost.text_injective htext]

/-- Behind the colon, a clause is found again from a text that begins with it. -/
theorem body_append_inj {a b : AmountClause} {x y : List Char} (hfield : a.field = b.field)
    (h : a.body ++ x = b.body ++ y) : a = b ∧ x = y := by
  -- The character behind the colon is a digit only in clauses for exact amounts.
  have hbracket : ∀ (n : Nat) (u v : List Char), decimalDigits n ++ u ≠ '[' :: v := by
    intro n u v heq
    obtain ⟨c, more, hdigits⟩ := List.exists_cons_of_ne_nil (decimalDigits_ne_nil n)
    have hc : c.isDigit := isDigit_of_mem_decimalDigits (hdigits ▸ List.mem_cons_self)
    rw [hdigits] at heq
    obtain rfl : c = '[' := List.head_eq_of_cons_eq heq
    exact absurd hc (by decide)
  cases a with
  | exact field amount boost =>
    cases b with
    | exact field' amount' boost' =>
      obtain rfl : field = field' := hfield
      simp only [body, List.append_assoc, List.singleton_append] at h
      obtain ⟨rfl, hrest⟩ := decimalDigits_append_inj (stops_isDigit_boostText _ _)
        (stops_isDigit_boostText _ _) h
      obtain ⟨hboost, rfl⟩ := append_cons_inj_first (space_not_mem_boostText _)
        (space_not_mem_boostText _) hrest
      obtain rfl := boostText_inj (String.toList_inj.1 hboost)
      exact ⟨rfl, rfl⟩
    | range field' low high =>
      simp only [body, List.append_assoc, List.cons_append] at h
      exact absurd h (hbracket _ _ _)
  | range field low high =>
    cases b with
    | exact field' amount boost =>
      simp only [body, List.append_assoc, List.cons_append] at h
      exact absurd h.symm (hbracket _ _ _)
    | range field' low' high' =>
      obtain rfl : field = field' := hfield
      simp only [body, List.append_assoc, List.cons_append, List.cons.injEq, true_and] at h
      obtain ⟨rfl, hrest⟩ := decimalDigits_append_inj (stops_cons.2 rfl) (stops_cons.2 rfl) h
      simp only [List.cons.injEq, true_and, List.nil_append] at hrest
      obtain ⟨rfl, hend⟩ := decimalDigits_append_inj (stops_cons.2 rfl) (stops_cons.2 rfl) hrest
      exact ⟨rfl, by simpa using hend⟩

/-- A clause is found again from a text that begins with it. -/
theorem text_append_inj {a b : AmountClause} {x y : List Char}
    (ha : Field.nameFault? a.field = none) (hb : Field.nameFault? b.field = none)
    (h : a.text.toList ++ x = b.text.toList ++ y) : a = b ∧ x = y := by
  simp only [toList_text, List.append_assoc, List.cons_append] at h
  obtain ⟨hfield, hrest⟩ :=
    append_cons_inj_first (Field.colon_not_mem ha) (Field.colon_not_mem hb) h
  exact body_append_inj (String.toList_inj.1 hfield) hrest

theorem toList_text_ne_nil (clause : AmountClause) : clause.text.toList ≠ [] := by
  simp [toList_text]

/-- The field, the amount and the boost text of an exact clause. -/
def quantity? : AmountClause → Option (String × Nat × Option String)
  | exact field amount boost => some (field, amount, boost.map (·.text))
  | range .. => none

end AmountClause

/-- Clauses are found again from their texts one after the other. -/
theorem flatMap_text_inj {as bs : List AmountClause}
    (has : ∀ a ∈ as, Field.nameFault? a.field = none)
    (hbs : ∀ b ∈ bs, Field.nameFault? b.field = none)
    (h : as.flatMap (·.text.toList) = bs.flatMap (·.text.toList)) : as = bs := by
  induction as generalizing bs with
  | nil =>
    cases bs with
    | nil => rfl
    | cons b bs =>
      rw [List.flatMap_nil, List.flatMap_cons] at h
      exact absurd (List.append_eq_nil_iff.1 h.symm).1 b.toList_text_ne_nil
  | cons a as ih =>
    cases bs with
    | nil =>
      rw [List.flatMap_nil, List.flatMap_cons] at h
      exact absurd (List.append_eq_nil_iff.1 h).1 a.toList_text_ne_nil
    | cons b bs =>
      rw [List.forall_mem_cons] at has hbs
      rw [List.flatMap_cons, List.flatMap_cons] at h
      obtain ⟨rfl, hrest⟩ := AmountClause.text_append_inj has.1 hbs.1 h
      rw [ih has.2 hbs.2 hrest]

theorem expressionOf_eq_matchAll_iff {clauses : List AmountClause} :
    expressionOf clauses = matchAll ↔ clauses = [] :=
  ⟨not_imp_not.1 expressionOf_ne_matchAll, by rintro rfl; rfl⟩

/-- Clauses with valid fields are found again from their expression. -/
theorem expressionOf_inj {as bs : List AmountClause}
    (has : ∀ a ∈ as, Field.nameFault? a.field = none)
    (hbs : ∀ b ∈ bs, Field.nameFault? b.field = none)
    (h : expressionOf as = expressionOf bs) : as = bs := by
  by_cases hnil : as = []
  · subst hnil
    exact (expressionOf_eq_matchAll_iff.1 h.symm).symm
  · have hne : bs ≠ [] := by
      rintro rfl
      exact hnil (expressionOf_eq_matchAll_iff.1 h)
    rw [expressionOf_of_ne_nil hnil, expressionOf_of_ne_nil hne] at h
    refine flatMap_text_inj has hbs ?_
    simpa only [String.toList_join, List.flatMap_map] using String.toList_inj.2 h

/-! ### The distance of a gap -/

theorem signed_eq_of_nonneg {negative : Bool} {n : Nat} (h : 0 ≤ signed negative n) :
    signed negative n = n ∧ ∀ d, signed negative (n / d) = (n / d : Nat) := by
  cases negative with
  | false => exact ⟨rfl, fun _ => rfl⟩
  | true =>
    obtain rfl : n = 0 := by
      rw [signed, if_pos rfl] at h
      omega
    exact ⟨rfl, fun d => by simp [signed]⟩

/-- The whole part of a number that is not negative is the floor of its value. -/
theorem Binary.clamp_zero {F : Format} {x : Binary F} (hfinite : x.isFinite) (hpos : le 0 x)
    {high : Int} (hhigh : 0 ≤ high) : x.clamp 0 high = min high ⌊x.toRat?.getD 0⌋ := by
  cases x with
  | nan => cases hfinite
  | infinite => cases hfinite
  | finite negative n hn =>
    rw [le, compareBy, order_zero, order, decide_eq_true_eq] at hpos
    obtain ⟨hsigned, hpart⟩ := signed_eq_of_nonneg hpos
    have hfloor : ⌊(n : ℚ) / 2 ^ F.scale⌋ = ((n / 2 ^ F.scale : Nat) : Int) := by
      exact_mod_cast Rat.floor_natCast_div_natCast n (2 ^ F.scale)
    rw [clamp, toRat?, Option.getD_some, hsigned, hpart, Int.cast_natCast, hfloor]
    exact max_eq_right (le_min hhigh (Int.natCast_nonneg _))

namespace Gap

/-- The whole part of a gap, as an integer. -/
def whole (g : Gap) : Int := ⌊g.value.toRat?.getD 0⌋

/-- The distance is the whole part, at most the largest amount. -/
theorem distance_eq (g : Gap) : (g.distance : Int) = min (maxAmount : Int) g.whole := by
  have hclamp := Binary.clamp_zero g.isGap.1 g.isGap.2 (Int.natCast_nonneg maxAmount)
  have hnonneg : 0 ≤ g.value.clamp 0 maxAmount := by
    rw [Binary.clamp.eq_def]
    split <;> omega
  rw [distance, Int.toNat_of_nonneg hnonneg, hclamp, whole]

end Gap

/-! ### Quantities are found again -/

namespace Occurrence

variable (o : Occurrence)

/-- The text of the boost of the unit, if it declares one. -/
def boostText? : Option String := o.unit.boost.map (·.text)

/-- The clause for the amount itself: the field, the amount, and the boost if there is one. -/
def exactText : String :=
  o.field ++ ":" ++ toString o.amount ++ ((o.boostText?.map ("^" ++ ·)).getD "") ++ " "

/-- The clause for the amounts at most `distance` away, as far as they are amounts. -/
def rangeText (distance : Int) : String :=
  o.field ++ ":[" ++ toString (max 0 ((o.amount : Int) - distance)) ++ " TO " ++
    toString (min (2 ^ 64 - 1) ((o.amount : Int) + distance)) ++ "] "

end Occurrence

namespace Catalogue

variable (c : Catalogue)

/-- A quantity is one of a unit of the catalogue, for the field of that unit. -/
def Measures (o : Occurrence) : Prop := ∃ f ∈ c.fields, o.field = f.name ∧ o.unit ∈ f.units

instance (o : Occurrence) : Decidable (c.Measures o) :=
  inferInstanceAs (Decidable (∃ f ∈ c.fields, _))

/-- What is written for a quantity: the exact clause, and the range clause if the field has a
    gap. -/
def clauseTexts (o : Occurrence) : String :=
  o.exactText ++
    match c.gap? o.field with
    | none => ""
    | some gap => o.rangeText (min (2 ^ 64 - 1) gap.whole)

variable {c}

/-- The amounts of a range clause are those of the integers, cut at both ends. -/
theorem text_range (o : Occurrence) (gap : Gap) :
    (AmountClause.range o.field (gap.range o.amount).1 (gap.range o.amount).2).text =
      o.rangeText (min (2 ^ 64 - 1) gap.whole) := by
  have hdistance : min (2 ^ 64 - 1) gap.whole = (gap.distance : Int) := gap.distance_eq.symm
  have hlow : max 0 ((o.amount : Int) - gap.distance) =
      ((o.amount - gap.distance : Nat) : Int) := by
    omega
  have hhigh : min (2 ^ 64 - 1) ((o.amount : Int) + gap.distance) =
      ((min (o.amount + gap.distance) maxAmount : Nat) : Int) := by
    rw [maxAmount]
    omega
  rw [Occurrence.rangeText, hdistance, hlow, hhigh]
  rfl

theorem text_exact (o : Occurrence) :
    (AmountClause.exact o.field o.amount o.unit.boost).text = o.exactText := by
  rw [AmountClause.text, Occurrence.exactText, Occurrence.boostText?, AmountClause.boostText.eq_def]
  cases o.unit.boost <;> rfl

theorem flatMap_text_clauses (o : Occurrence) :
    (c.clauses .boost o).flatMap (·.text.toList) = (c.clauseTexts o).toList := by
  rw [clauses, List.flatMap_cons, text_exact, clauseTexts, String.toList_append, rangeClause?]
  cases c.gap? o.field with
  | none => rfl
  | some gap =>
    rw [Option.map_some, Option.toList_some, List.flatMap_singleton, text_range]

theorem expression_boost_eq_matchAll_iff {found : List Occurrence} :
    c.expression .boost found = matchAll ↔ found = [] := by
  rw [expression, expressionOf_eq_matchAll_iff, List.flatMap_eq_nil_iff]
  constructor
  · intro h
    exact List.eq_nil_iff_forall_not_mem.2 fun o ho => List.cons_ne_nil _ _ (h o ho)
  · rintro rfl o ho
    cases ho

theorem expression_boost_of_ne_nil {found : List Occurrence} (h : found ≠ []) :
    c.expression .boost found = String.join (found.map c.clauseTexts) := by
  have hne : found.flatMap (c.clauses .boost) ≠ [] :=
    mt (fun hnil => expression_boost_eq_matchAll_iff.1 (expressionOf_eq_matchAll_iff.2 hnil)) h
  rw [expression, expressionOf_of_ne_nil hne, ← String.toList_inj, String.toList_join,
    String.toList_join, List.flatMap_map, List.flatMap_map, List.flatMap_assoc]
  simp only [flatMap_text_clauses]

/-- The exact clauses have the fields, amounts and boost texts of the quantities, in their
    order. -/
theorem filterMap_quantity? (found : List Occurrence) :
    (found.flatMap (c.clauses .boost)).filterMap AmountClause.quantity? =
      found.map fun o => (o.field, o.amount, o.boostText?) := by
  have hone : ∀ o, (c.clauses .boost o).filterMap AmountClause.quantity? =
      [(o.field, o.amount, o.boostText?)] := by
    intro o
    rw [clauses, List.filterMap_cons, AmountClause.quantity?, rangeClause?]
    cases c.gap? o.field <;> rfl
  induction found with
  | nil => rfl
  | cons o found ih =>
    rw [List.flatMap_cons, List.filterMap_append, hone, ih, List.map_cons, List.singleton_append]

/-- The clauses for a quantity depend on nothing but its field, its amount and its boost text. -/
theorem factorsThrough_clauses :
    (c.clauses .boost).FactorsThrough fun o => (o.field, o.amount, o.boostText?) := by
  intro o o' h
  simp only [Prod.mk.injEq] at h
  obtain ⟨hfield, hamount, hboost⟩ := h
  rw [clauses, clauses, rangeClause?, rangeClause?, hfield, hamount,
    Option.map_injective Boost.text_injective hboost]

/-- In boost style, nothing but the expression that asks for all documents stands for no
    quantities. For some quantities the expression is made of an exact clause for each, with the
    boost text if its unit declares a boost, and of a range clause behind it if its field has a
    gap, cut at both ends of the amounts. From the expression, the fields, the amounts and the
    boost texts are found again. -/
theorem expression_boost {fields : List Field} (h : ofFields fields = .ok c)
    {found other : List Occurrence} (hfound : ∀ o ∈ found, c.Measures o)
    (hother : ∀ o ∈ other, c.Measures o) :
    (c.expression .boost found = matchAll ↔ found = []) ∧
      (found ≠ [] → c.expression .boost found = String.join (found.map c.clauseTexts)) ∧
      (c.expression .boost found = c.expression .boost other ↔
        found.map (fun o => (o.field, o.amount, o.boostText?)) =
          other.map fun o => (o.field, o.amount, o.boostText?)) := by
  refine ⟨expression_boost_eq_matchAll_iff, expression_boost_of_ne_nil, ?_, ?_⟩
  · intro heq
    have hnames : ∀ {found : List Occurrence}, (∀ o ∈ found, c.Measures o) →
        ∀ clause ∈ found.flatMap (c.clauses .boost), Field.nameFault? clause.field = none := by
      intro found hfound clause hmem
      obtain ⟨o, ho, hclause⟩ := List.mem_flatMap.1 hmem
      obtain ⟨f, hf, hfield, -⟩ := hfound o ho
      rw [field_of_mem_clauses hclause, hfield]
      exact nameFault?_of_ofFields h f hf
    have hclauses := expressionOf_inj (hnames hfound) (hnames hother) heq
    rw [← filterMap_quantity? (c := c), ← filterMap_quantity? (c := c), hclauses]
  · intro heq
    obtain ⟨write, hwrite⟩ := (Function.factorsThrough_iff _).1 (factorsThrough_clauses (c := c))
    have hclauses : ∀ found : List Occurrence, found.flatMap (c.clauses .boost) =
        (found.map fun o => (o.field, o.amount, o.boostText?)).flatMap write := by
      intro found
      rw [List.flatMap_map, hwrite]
      rfl
    rw [expression, expression, hclauses, hclauses, heq]

/-- A field with a gap and a boost and a field with neither, and two streams of quantities. The
    ranges of a small and of the largest amount are cut. -/
theorem expression_boost_capacity :
    let gap : Gap := ⟨.ofRatio false 21 2, by decide +kernel⟩
    let boost : Boost := ⟨"3.5", by decide +kernel⟩
    let gigabyte : MeasureUnit := ⟨"gigabyte", ["GB"], some boost, some gap⟩
    let inch : MeasureUnit := ⟨"inch", ["in"], none, none⟩
    let fields : List Field := [⟨"capacity", none, [gigabyte]⟩, ⟨"size", none, [inch]⟩]
    let found : List Occurrence := [⟨"capacity", 4, gigabyte⟩, ⟨"size", 42, inch⟩]
    let other : List Occurrence := [⟨"capacity", maxAmount, gigabyte⟩]
    ∃ c, ofFields fields = .ok c ∧
      c.expression .boost found = "capacity:4^3.5 capacity:[0 TO 14] size:42 " ∧
      c.expression .boost other = "capacity:18446744073709551615^3.5 " ++
        "capacity:[18446744073709551605 TO 18446744073709551615] " ∧
      c.expression .boost found ≠ c.expression .boost other := by
  intro gap boost gigabyte inch fields found other
  have hc : ofFields fields = .ok ⟨fields.map Field.normalise⟩ := by decide +kernel
  have hfound : ∀ o ∈ found, Measures ⟨fields.map Field.normalise⟩ o := by decide +kernel
  have hother : ∀ o ∈ other, Measures ⟨fields.map Field.normalise⟩ o := by decide +kernel
  obtain ⟨-, htexts, hiff⟩ := expression_boost hc hfound hother
  obtain ⟨-, htexts', -⟩ := expression_boost hc hother hfound
  refine ⟨_, hc, ?_, ?_, mt hiff.1 (by decide +kernel)⟩
  · rw [htexts (List.cons_ne_nil _ _)]
    decide +kernel
  · rw [htexts' (List.cons_ne_nil _ _)]
    decide +kernel

end Catalogue

end QuantityQuery
