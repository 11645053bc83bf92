import QuantityQuery.Proofs.Query.Bounds
import QuantityQuery.Proofs.Query.Embedding
import QuantityQuery.Proofs.Query.Parsing
import QuantityQuery.Proofs.Search.Execution
import QuantityQuery.Proofs.Search.Index

/-!
# Ranges of one number

A number after a field asks for the documents with this value, and so does the range from
the number to itself. The number of a term is written and read again, which loses nothing,
while the ends of a range are cut at `2 ^ 63`. So the two find the same documents of every
index exactly if the number is at most `2 ^ 63` (`Node.find_point_iff`); for a greater one
the range asks for `2 ^ 63` in its place.

* `Token.sign?_of_read`: a number in a text is not negative;
* `Node.number`, `Node.point`: the two conditions.
-/

namespace QuantityQuery

attribute [local instance (2000)] instPowNat

/-! ### Signs -/

namespace Binary

variable {F : Format} {negative : Bool}

/-- The sign of a number; none where there is no number. -/
def sign? : Binary F → Option Bool
  | nan => none
  | infinite negative => some negative
  | finite negative _ _ => some negative

theorem sign?_ofQuanta (num den : Nat) :
    (ofQuanta negative num den : Binary F).sign? = some negative := by
  simp only [ofQuanta]
  split <;> rfl

theorem exists_quanta {x : Binary F} (hfinite : x.isFinite) (hsign : x.sign? = some false) :
    ∃ n h, x = finite false n h := by
  cases x with
  | nan => cases hfinite
  | infinite => cases hfinite
  | finite negative n h =>
    obtain rfl : negative = false := Option.some.inj hsign
    exact ⟨n, h, rfl⟩

end Binary

theorem Decimal.sign?_toBinary {F : Format} (d : Decimal) :
    (d.toBinary F).sign? = some d.negative := by
  rw [toBinary]
  split_ifs
  · rfl
  · rfl
  · exact Binary.sign?_ofQuanta ..
  · rfl
  · exact Binary.sign?_ofQuanta ..

theorem negative_of_readDecimal? {negative : Bool} {text : List Char} {d : Decimal}
    (h : readDecimal? negative text = some d) : d.negative = negative := by
  simp only [readDecimal?] at h
  split at h
  · cases h
  · obtain ⟨_, _, rfl⟩ := Option.map_eq_some_iff.1 h
    rfl

/-! ### Numbers in texts -/

namespace Token

variable {position size : Nat} {c : Char} {text : List Char} {x : Double}

theorem sign?_of_ofNumeric (hc : c.isDigit) (h : ofNumeric (c :: text) = number x)
    (hfinite : x.isFinite) : x.sign? = some false := by
  unfold ofNumeric at h
  split at h
  case isFalse => cases h
  case isTrue =>
    obtain rfl := number.inj h
    rw [(readBinary?_of_isDigit hc text).1] at hfinite ⊢
    cases hread : readDecimal? false (c :: text) with
    | none =>
      rw [hread] at hfinite
      cases hfinite
    | some d =>
      rw [Option.map_some, Option.getD_some, d.sign?_toBinary, negative_of_readDecimal? hread]

/-- Signs are tokens of their own, so numbers have none. -/
theorem sign?_of_read (h : Token.read position c text = .ok (number x, size))
    (hfinite : x.isFinite) : x.sign? = some false := by
  unfold Token.read at h
  split at h
  case h_1 hmark =>
    cases h
    unfold punctuation? at hmark
    split at hmark <;> cases hmark
  case h_2 =>
    split_ifs at h with htilde hcaret hquote hdigit hstart
    · cases h
    · cases h
    · split at h <;> cases h
    · exact sign?_of_ofNumeric hdigit (Prod.mk.inj (Except.ok.inj h)).1 hfinite
    · have hword : ofWord (c :: text.takeWhile isTermChar) = number x :=
        (Prod.mk.inj (Except.ok.inj h)).1
      unfold ofWord at hword
      split_ifs at hword

end Token

theorem FallsInto.sign? {text : List Char} {ts : List Token} (h : FallsInto text ts) {x : Double}
    (hx : .number x ∈ ts) (hfinite : x.isFinite) : x.sign? = some false := by
  induction h with
  | nil => cases hx
  | blank _ _ ih => exact ih hx
  | token _ hread _ ih =>
    rcases List.mem_cons.1 hx with rfl | hx
    · exact Token.sign?_of_read (hread 0) hfinite
    · exact ih hx

/-! ### Numbers as conditions -/

theorem Binary.eq_iff_le_and_le {F : Format} {x y : Binary F} : x.eq y ↔ y.le x ∧ x.le y := by
  rw [eq_iff, le_iff, le_iff]
  constructor
  · rintro ⟨i, hx, hy⟩
    exact ⟨⟨i, hy, i, hx, Int.le_refl i⟩, i, hx, i, hy, Int.le_refl i⟩
  · rintro ⟨⟨j, hy, i, hx, hji⟩, i', hx', j', hy', hij⟩
    obtain rfl := Option.some.inj (hx.symm.trans hx')
    obtain rfl := Option.some.inj (hy.symm.trans hy')
    exact ⟨i, hx, by rw [hy, Int.le_antisymm hji hij]⟩

namespace Node

/-- The condition of a number after a field. -/
def number (field : String) (x : Double) : Node := .term ⟨field, Layout.plain.write x, 1⟩

/-- The condition of the range from a number to itself after a field. -/
def point (field : String) (x : Double) : Node :=
  .range ⟨field, { gte := some (.ofNumber x), lte := some (.ofNumber x) }⟩

variable {ix : Index} {k : Nat} {field : String} {x w : Double}

theorem holds_number_iff (hfinite : x.isFinite) :
    (number field x).Holds ix k ↔ ∃ v ∈ ix.value? field k, v.eq x := by
  rw [number, Holds, TermQuery.value?_write hfinite]
  simp only [Option.mem_some, exists_eq_left']

theorem holds_point_iff (hw : w ∈ (Bound.ofNumber x).value?) :
    (point field x).Holds ix k ↔ ∃ v ∈ ix.value? field k, v.eq w := by
  rw [point, Holds]
  simp only [Bounds.admits_between_iff, Option.mem_def.1 hw, Option.mem_some, exists_eq_left',
    Binary.eq_iff_le_and_le]

/-- If a number asks for the same values as the range from it to itself, the range compares with
    the number: the index with the number as its only value would tell the two apart. -/
theorem eq_of_find_eq (hfinite : x.isFinite) (hx : x.eq x) (hw : w ∈ (Bound.ofNumber x).value?)
    (h : ∀ ix, (number field x).find ix = (point field x).find ix) : x.eq w := by
  let ix := Index.single [(field, x)]
  have hvalue : ix.value? field 0 = some x := Index.value?_single.trans (if_pos rfl)
  have hfound : 0 ∈ (number field x).find ix :=
    mem_find.2 ⟨Index.mem_live_single _, (holds_number_iff hfinite).2 ⟨x, hvalue, hx⟩⟩
  rw [h] at hfound
  obtain ⟨v, hv, heq⟩ := (holds_point_iff hw).1 (mem_find.1 hfound).2
  obtain rfl := Option.some.inj (hvalue.symm.trans hv)
  exact heq

/-- A number asks for the same values as the range from it to itself exactly if it stands at most
    at `2 ^ 63`. -/
theorem find_number_eq_find_point_iff (field : String) (hfinite : x.isFinite)
    (hsign : x.sign? = some false) :
    (∀ ix, (number field x).find ix = (point field x).find ix) ↔ x.le (.ofInt (2 ^ 63)) := by
  obtain ⟨n, h, rfl⟩ := Binary.exists_quanta hfinite hsign
  obtain ⟨w, hw, hplace⟩ := Bound.order_ofNumber h
  have hx : (Binary.finite false n h).order = some (n : Int) := rfl
  have hend : (Binary.ofInt (2 ^ 63) : Double).order = some (Double.place (2 ^ 63) : Int) :=
    Binary.order_ofInt (by decide) (2 ^ 63)
  have hle : (Binary.finite false n h).le (.ofInt (2 ^ 63)) ↔ n ≤ Double.place (2 ^ 63) := by
    simp only [Binary.le_iff, hx, hend, Option.some.injEq, exists_eq_left', Int.ofNat_le]
  rw [hle]
  constructor
  · intro hfinds
    obtain ⟨i, hi, hwi⟩ :=
      Binary.eq_iff.1 (eq_of_find_eq hfinite (Binary.eq_iff.2 ⟨_, hx, hx⟩) hw hfinds)
    rw [hx] at hi
    rw [hplace, ← hi, Option.some.injEq, Int.ofNat_inj] at hwi
    exact min_eq_left_iff.1 hwi
  · intro hle ix
    have hsame : w.order = (Binary.finite false n h).order := by
      rw [hplace, hx, min_eq_left hle]
    ext k
    rw [mem_find, mem_find, holds_number_iff hfinite, holds_point_iff hw]
    simp only [Binary.eq_iff, hsame]

end Node

/-! ### The texts of the conditions -/

section

variable {name text : String} {x : Double}

theorem lexes_number (hname : Field.nameFault? name = none)
    (htext : FallsInto text.toList [.number x]) :
    Lexes (name ++ ":" ++ text).toList [.term name, .colon, .number x] := by
  have hcolon : Lexes (':' :: text.toList) (.colon :: _) :=
    .punctuation rfl (by decide) htext.lexes
  simpa using Lexes.fieldName hname (by decide) hcolon

theorem lexes_point (hname : Field.nameFault? name = none)
    (htext : FallsInto text.toList [.number x]) :
    Lexes (name ++ ":[" ++ text ++ " TO " ++ text ++ "]").toList
      [.term name, .colon, .leftBracket, .number x, .upTo, .number x, .rightBracket] := by
  have hclosing : Lexes [']'] [.rightBracket] := .punctuation rfl (by decide) .nil
  have hhigh : FallsInto (text.toList ++ [']']) ([.number x] ++ _) :=
    htext.append (by decide) (lexes_iff.1 hclosing)
  have hto : Lexes ('T' :: (['O'] ++ ' ' :: _)) (.upTo :: _) :=
    .name (by decide) (List.forall_mem_singleton.2 (by decide)) (stops_cons.2 (by decide))
      (.blank (by decide) hhigh.lexes)
  have hlow : FallsInto (text.toList ++ ' ' :: _) ([.number x] ++ _) :=
    htext.append (by decide) (.blank (by decide) (lexes_iff.1 hto))
  have hopening : Lexes (':' :: '[' :: _) (.colon :: .leftBracket :: _) :=
    .punctuation rfl (by decide) (.punctuation rfl (by decide) hlow.lexes)
  simpa using Lexes.fieldName hname (by decide) hopening

end

/-- A number after a field and the range from the number to itself are accepted, and they find the
    same documents of every index exactly if the number is at most `2 ^ 63`. -/
theorem Node.find_point_iff {name text : String} {x : Double}
    (hname : Field.nameFault? name = none) (hfault : (Reading.ofText text).fault = none)
    (htokens : (Reading.ofText text).tokens = [.number x]) (hfinite : x.isFinite)
    (field : String) (op : Operator) :
    ∃ p q, Node.ofText field op (name ++ ":" ++ text) = .ok p ∧
      Node.ofText field op (name ++ ":[" ++ text ++ " TO " ++ text ++ "]") = .ok q ∧
      ((∀ ix, p.find ix = q.find ix) ↔ x.le (.ofInt (2 ^ 63))) := by
  have htext : FallsInto text.toList [.number x] := Reading.ofText_iff.1 ⟨hfault, htokens⟩
  have hsign := htext.sign? List.mem_cons_self hfinite
  have hnumber : (Chain.one (.leaf .plain (.term (some name) (Layout.plain.write x) 1))).WrittenAs
      [.term name, .colon, .number x] :=
    .one (.leaf .plain (.fieldValue (.number x) .absent))
  have hpoint : (Chain.one (.leaf .plain (.range name
      (.between (some (.ofNumber x)) (some (.ofNumber x)) true true 1)))).WrittenAs
      [.term name, .colon, .leftBracket, .number x, .upTo, .number x, .rightBracket] :=
    .one (.leaf .plain (.fieldRange (.number x) (.number x) .absent))
  have hp : Node.ofText field op (name ++ ":" ++ text) = .ok (.number name x) :=
    (lexes_number hname htext).ofText_eq_ok hnumber
  have hq : Node.ofText field op (name ++ ":[" ++ text ++ " TO " ++ text ++ "]") =
      .ok (.point name x) :=
    (lexes_point hname htext).ofText_eq_ok hpoint
  exact ⟨_, _, hp, hq, find_number_eq_find_point_iff name hfinite hsign⟩

theorem Node.find_point_half :
    let x : Double := .ofRatio false 129 2
    Field.nameFault? "capacity" = none ∧ (Reading.ofText "64.5").fault = none ∧
      (Reading.ofText "64.5").tokens = [.number x] ∧ x.isFinite ∧
      ∃ p q, Node.ofText "name" .or "capacity:64.5" = .ok p ∧
        Node.ofText "name" .or "capacity:[64.5 TO 64.5]" = .ok q ∧
        ∀ ix, p.find ix = q.find ix := by
  intro x
  have hname : Field.nameFault? "capacity" = none := by decide +kernel
  have hfault : (Reading.ofText "64.5").fault = none := by decide +kernel
  have htokens : (Reading.ofText "64.5").tokens = [.number x] := by decide +kernel
  have hfinite : x.isFinite := by decide +kernel
  obtain ⟨p, q, hp, hq, hiff⟩ := Node.find_point_iff hname hfault htokens hfinite "name" .or
  exact ⟨hname, hfault, htokens, hfinite, p, q, hp, hq, hiff.2 (by decide +kernel)⟩

/-- Of `2 ^ 64`, which is read exactly, the range does not find the document with this value. -/
theorem Node.find_point_not_found :
    let x : Double := .ofInt (2 ^ 64)
    let ix : Index := .single [("capacity", x)]
    Field.nameFault? "capacity" = none ∧ (Reading.ofText "18446744073709551616").fault = none ∧
      (Reading.ofText "18446744073709551616").tokens = [.number x] ∧ x.isFinite ∧
      ((Node.ofText "name" .or "capacity:18446744073709551616").toOption.any
        fun p => 0 ∈ p.find ix) ∧
      ((Node.ofText "name" .or
        "capacity:[18446744073709551616 TO 18446744073709551616]").toOption.any
          fun q => 0 ∉ q.find ix) := by
  decide +kernel

end QuantityQuery
