import QuantityQuery.Proofs.Query.Lexeme
import QuantityQuery.Proofs.Query.Parsing

/-!
# Boosts that queries write

The digits after a caret always write a number, as do the boosts that stand for no digits
and for no caret. So the boost at the root of a parsed tree is a number
(`Node.boost_ne_nan_of_ofText`), whatever the text.
-/

namespace QuantityQuery

/-! ### Numerals of digits and a point -/

namespace Binary

variable {F : Format}

theorem ofQuanta_ne_nan (negative : Bool) (num den : Nat) :
    (ofQuanta negative num den : Binary F) ≠ nan := by
  rw [ofQuanta]
  split <;> rintro ⟨⟩

theorem ofNat_ne_nan (n : Nat) : (OfNat.ofNat n : Binary F) ≠ nan := ofQuanta_ne_nan _ _ _

end Binary

theorem Decimal.toBinary_ne_nan {F : Format} (d : Decimal) : d.toBinary F ≠ .nan := by
  rw [toBinary]
  split_ifs
  · rintro ⟨⟩
  · rintro ⟨⟩
  · exact Binary.ofQuanta_ne_nan _ _ _
  · rintro ⟨⟩
  · exact Binary.ofQuanta_ne_nan _ _ _

/-- What is no number is written with letters. -/
theorem readBinary?_ne_nan {F : Format} {text : List Char}
    (h : ∀ c ∈ text, c.isDigit || c = '.') : readBinary? F text ≠ some .nan := by
  intro hread
  have hmagnitude : ∀ c ∈ (spanSign text).2, c.isDigit || c = '.' := by
    intro c hc
    refine h c ?_
    unfold spanSign at hc
    split at hc
    · exact List.mem_cons_of_mem _ hc
    · exact List.mem_cons_of_mem _ hc
    · exact hc
  simp only [readBinary?] at hread
  split at hread
  case isTrue => cases hread
  case isFalse =>
    split at hread
    case isTrue hnan =>
      have hn : 'n' ∈ (spanSign text).2.map Char.toLower := by
        rw [← String.toList_ofList (l := (spanSign text).2.map Char.toLower), hnan]
        decide
      obtain ⟨c, hc, hlower⟩ := List.mem_map.1 hn
      -- A digit and the point are their own lower cases.
      rcases Bool.or_eq_true_iff.1 (hmagnitude c hc) with hdigit | hpoint
      · rw [toLower_of_isDigit hdigit] at hlower
        rw [hlower] at hdigit
        cases hdigit
      · rw [of_decide_eq_true hpoint] at hlower
        exact absurd hlower (by decide)
    case isFalse =>
      obtain ⟨d, -, hd⟩ := Option.map_eq_some_iff.1 hread
      exact d.toBinary_ne_nan hd

/-! ### Tokens -/

theorem Token.read_ne_caret_nan {position size : Nat} {c : Char} {rest : List Char} {token : Token}
    (h : Token.read position c rest = .ok (token, size)) : token ≠ .caret (some .nan) := by
  unfold read at h
  split at h
  case h_1 t ht =>
    cases h
    rintro rfl
    revert ht
    unfold punctuation?
    split <;> nofun
  case h_2 =>
    split_ifs at h
    · cases h
      nofun
    · obtain ⟨rfl, -⟩ := Prod.mk.inj (Except.ok.inj h)
      intro hnan
      exact readBinary?_ne_nan mem_spanBoost (Token.caret.inj hnan)
    · split at h
      · cases h
      · cases h
        nofun
    · cases h
      unfold ofNumeric
      split <;> nofun
    · cases h
      unfold ofWord
      split_ifs <;> nofun

/-- No caret of a text carries what is no number. -/
theorem Reading.token_ne_caret_nan (position : Nat) (text : List Char) :
    ∀ lexeme ∈ (readFrom position text).lexemes, lexeme.token ≠ .caret (some .nan) := by
  fun_induction readFrom position text with
  | case1 => exact fun _ h => nomatch h
  | case2 => exact fun _ h => nomatch h
  | case3 position text c rest h blanks start token size hread hlt more ih =>
    exact List.forall_mem_cons.2 ⟨Token.read_ne_caret_nan hread, ih⟩

theorem Reading.caret_nan_not_mem_tokens (text : String) :
    .caret (some .nan) ∉ (Reading.ofText text).tokens := by
  intro h
  obtain ⟨lexeme, hlexeme, heq⟩ := List.mem_map.1 h
  exact token_ne_caret_nan 0 text.toList lexeme hlexeme heq

/-! ### Trees -/

namespace Node

/-- The boost at the root of a tree is a number. -/
def IsWeighted (q : Node) : Prop := q.boost ≠ .nan

theorem isWeighted_bool {must should mustNot : List Node} :
    (bool must should mustNot).IsWeighted := Binary.ofNat_ne_nan 1

theorem isWeighted_combine {op : Operator} {qs : List Node} (h : ∀ q ∈ qs, q.IsWeighted) :
    (op.combine qs).IsWeighted := by
  match qs with
  | [q] => exact h q List.mem_cons_self
  | [] => cases op <;> exact isWeighted_bool
  | _ :: _ :: _ => cases op <;> exact isWeighted_bool

theorem IsWeighted.apply {q : Node} (h : q.IsWeighted) (sign : Sign) :
    (sign.apply q).IsWeighted := by
  cases sign with
  | plain => exact h
  | required => exact isWeighted_bool
  | excluded => exact isWeighted_bool

end Node

namespace Pending

/-- All conditions read so far are weighted. -/
structure IsWeighted (p : Pending) : Prop where
  alternatives : ∀ q ∈ p.alternatives, q.IsWeighted
  required : ∀ q ∈ p.required, q.IsWeighted
  last : p.last.IsWeighted
  beside : ∀ q ∈ p.beside, q.IsWeighted

variable {p : Pending} {op : Operator}

theorem IsWeighted.start {q : Node} (h : q.IsWeighted) : (start q).IsWeighted :=
  ⟨nofun, nofun, h, nofun⟩

theorem IsWeighted.allRequired (h : p.IsWeighted) : ∀ q ∈ p.allRequired op, q.IsWeighted :=
  List.forall_mem_append.2 ⟨h.required, List.forall_mem_singleton.2
    (Node.isWeighted_combine (List.forall_mem_cons.2 ⟨h.last, h.beside⟩))⟩

theorem IsWeighted.alternative (h : p.IsWeighted) : (p.alternative op).IsWeighted :=
  Node.isWeighted_combine h.allRequired

theorem IsWeighted.add (h : p.IsWeighted) (link : Link) (sign : Sign) {q : Node}
    (hq : q.IsWeighted) : (p.add op link sign q).IsWeighted := by
  have hbeside : ∀ r ∈ p.beside ++ [q], r.IsWeighted :=
    List.forall_mem_append.2 ⟨h.beside, List.forall_mem_singleton.2 hq⟩
  cases link with
  | or =>
    have halternatives : ∀ r ∈ p.alternatives ++ [p.alternative op], r.IsWeighted :=
      List.forall_mem_append.2 ⟨h.alternatives, List.forall_mem_singleton.2 h.alternative⟩
    exact ⟨halternatives, nofun, hq, nofun⟩
  | and => exact ⟨h.alternatives, h.allRequired, hq, nofun⟩
  | beside =>
    cases sign with
    | plain => exact { h with beside := hbeside }
    | required => exact { h with beside := hbeside }
    | excluded =>
      have hrequired : ∀ r ∈ p.required ++ [p.last], r.IsWeighted :=
        List.forall_mem_append.2 ⟨h.required, List.forall_mem_singleton.2 h.last⟩
      exact ⟨h.alternatives, hrequired, hq, h.beside⟩

theorem IsWeighted.finish (h : p.IsWeighted) : (p.finish op).IsWeighted :=
  Node.isWeighted_combine (List.forall_mem_append.2
    ⟨h.alternatives, List.forall_mem_singleton.2 h.alternative⟩)

end Pending

variable {field : String} {op : Operator} {ts : List Token}

theorem BoostWritten.ne_nan {boost : Single} (h : BoostWritten boost ts)
    (hts : .caret (some .nan) ∉ ts) : boost ≠ .nan := by
  cases h with
  | absent => exact Binary.ofNat_ne_nan 1
  | caret boost =>
    cases boost with
    | none => exact Binary.ofNat_ne_nan 2
    | some x =>
      rintro rfl
      exact hts List.mem_cons_self

theorem Leaf.WrittenAs.isWeighted {leaf : Leaf} (h : leaf.WrittenAs ts)
    (hts : .caret (some .nan) ∉ ts) : (leaf.toNode field).IsWeighted := by
  cases h with
  | all hboost => exact hboost.ne_nan fun h => hts (by simp [h])
  | allFields hboost => exact hboost.ne_nan fun h => hts (by simp [h])
  | value _ hboost => exact hboost.ne_nan fun h => hts (by simp [h])
  | fieldValue _ hboost => exact hboost.ne_nan fun h => hts (by simp [h])
  | fieldAny hboost => exact hboost.ne_nan fun h => hts (by simp [h])
  | fieldRange _ _ hboost => exact hboost.ne_nan fun h => hts (by simp [h])

mutual

theorem Clause.WrittenAs.isWeighted {clause : Clause} {ts : List Token} :
    clause.WrittenAs ts → .caret (some .nan) ∉ ts → (clause.toNode field op).IsWeighted
  | .leaf _ hleaf, hts => by
    rw [Clause.toNode]
    exact (hleaf.isWeighted fun h => hts (by simp [h])).apply _
  | .group _ hchain, hts => by
    rw [Clause.toNode]
    exact (hchain.isWeighted fun h => hts (by simp [h])).finish.apply _

theorem Chain.WrittenAs.isWeighted {chain : Chain} {ts : List Token} :
    chain.WrittenAs ts → .caret (some .nan) ∉ ts → (chain.pending field op).IsWeighted
  | .one hclause, hts => by
    rw [Chain.pending]
    exact .start (hclause.isWeighted hts)
  | .link hbefore _ hclause, hts => by
    rw [Chain.pending]
    exact (hbefore.isWeighted fun h => hts (by simp [h])).add _ _
      (hclause.isWeighted fun h => hts (by simp [h]))

end

/-- The boost at the root of the tree that a text writes is a number. -/
theorem Node.boost_ne_nan_of_ofText {text : String} {q : Node}
    (h : Node.ofText field op text = .ok q) : q.boost ≠ .nan := by
  obtain ⟨chain, hchain, rfl⟩ := Node.ofText_eq_ok_iff.1 h
  have hwritten := (Chain.ofText_eq_ok_iff.1 hchain).2
  exact (hwritten.isWeighted (Reading.caret_nan_not_mem_tokens text)).finish

end QuantityQuery
