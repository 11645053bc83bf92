import QuantityQuery.Proofs.Query.Embedding
import QuantityQuery.Proofs.Query.Linking
import QuantityQuery.Proofs.Query.Parsing
import QuantityQuery.Proofs.Search.Execution

/-!
# Queries made of queries

Queries in parentheses compose. Written in parentheses, a query keeps its tree; several,
joined by `OR`, by `AND` or by a space, become the combination of their trees by the
operator of the link (`Node.ofText_joined`); and with `NOT` or a minus before it, a query
becomes the exclusion of its tree (`Node.ofText_excluded`). What such combinations find are
unions, intersections and complements of what the queries find (`Node.ofText_groups`).
-/

namespace QuantityQuery

/-- A query in parentheses. -/
def grouped (text : String) : String := "(" ++ text ++ ")"

/-- What stands between two clauses that are linked. -/
def Link.text : Link → String
  | and => " AND "
  | or => " OR "
  | beside => " "

/-- Some queries in parentheses, joined by a link. -/
def joined (l : Link) (texts : List String) : String := l.text.intercalate (texts.map grouped)

/-- The tokens of a text in parentheses. -/
def groupTokens (text : String) : List Token :=
  .leftParen :: ((Reading.ofText text).tokens ++ [.rightParen])

variable {field : String} {op : Operator} {l : Link} {ls : List Token}

/-! ### Tokens -/

theorem Lexes.grouped {text : String} {rest : List Char} {us : List Token}
    (htext : (Reading.ofText text).fault = none) (hrest : Lexes rest us) :
    Lexes ((grouped text).toList ++ rest) (groupTokens text ++ us) := by
  have hclosing : Lexes (')' :: rest) (.rightParen :: us) := .punctuation rfl (by decide) hrest
  have hinner : Lexes (text.toList ++ ')' :: rest)
      ((Reading.ofText text).tokens ++ .rightParen :: us) :=
    ((fallsInto_of_fault_eq_none htext).append (by decide) (lexes_iff.1 hclosing)).lexes
  have hgroup : Lexes ('(' :: _) (.leftParen :: _) := .punctuation rfl (by decide) hinner
  simpa [QuantityQuery.grouped, groupTokens] using hgroup

/-- A word and a space after it. -/
theorem Lexes.spaced {c : Char} {more rest : List Char} {ts : List Token}
    (hc : Token.isNameStart c) (hmore : more.all isTermChar) (hrest : Lexes rest ts) :
    Lexes (c :: (more ++ ' ' :: rest)) (Token.ofWord (c :: more) :: ts) :=
  .name hc (List.all_eq_true.1 hmore) (stops_cons.2 (by decide)) (.blank (by decide) hrest)

/-- A link before a query in parentheses. -/
theorem LinkWritten.lexes (h : LinkWritten l ls) {rest : List Char} {ts : List Token}
    (hrest : Lexes rest ts) : Lexes (l.text.toList ++ rest) (ls ++ ts) := by
  cases h with
  | and =>
    have hword : Lexes ('A' :: (['N', 'D'] ++ ' ' :: rest)) (.and :: ts) :=
      .spaced (by decide) (by decide) hrest
    exact .blank (by decide) hword
  | or =>
    have hword : Lexes ('O' :: (['R'] ++ ' ' :: rest)) (.or :: ts) :=
      .spaced (by decide) (by decide) hrest
    exact .blank (by decide) hword
  | beside => exact .blank (by decide) hrest

theorem lexes_joined (hl : LinkWritten l ls) {first : String} {texts : List String}
    (h : ∀ text ∈ first :: texts, (Reading.ofText text).fault = none) :
    Lexes (joined l (first :: texts)).toList
      (groupTokens first ++ texts.flatMap fun text => ls ++ groupTokens text) := by
  induction texts generalizing first with
  | nil =>
    have hfirst := Lexes.grouped (h first List.mem_cons_self) .nil
    simpa [joined] using hfirst
  | cons second texts ih =>
    obtain ⟨hfirst, hrest⟩ := List.forall_mem_cons.1 h
    have hlexes := Lexes.grouped hfirst (hl.lexes (ih hrest))
    simpa [joined, String.intercalate_cons_cons] using hlexes

/-! ### Trees -/

theorem Clause.toNode_group (sign : Sign) (chain : Chain) :
    (group sign chain).toNode field op = sign.apply (chain.toNode field op) := by
  rw [toNode, Chain.toNode]

/-- A query can be a group, with any sign. -/
theorem exists_group_of_ofText {text : String} {q : Node}
    (h : Node.ofText field op text = .ok q) :
    (Reading.ofText text).fault = none ∧ ∃ chain : Chain, chain.toNode field op = q ∧
      ∀ {sign ss}, SignWritten sign ss →
        (Clause.group sign chain).WrittenAs (ss ++ groupTokens text) := by
  obtain ⟨chain, hchain, hnode⟩ := Node.ofText_eq_ok_iff.1 h
  obtain ⟨hfault, hwritten⟩ := Chain.ofText_eq_ok_iff.1 hchain
  exact ⟨hfault, chain, hnode, fun hsign => .group hsign hwritten⟩

namespace Node

variable {tree : String → Node} {text : String}

/-- Queries in parentheses with one link are combined by its operator. -/
theorem ofText_joined (hl : LinkWritten l ls) {first : String} {texts : List String}
    (h : ∀ text ∈ first :: texts, ofText field op text = .ok (tree text)) :
    ofText field op (joined l (first :: texts)) =
      .ok ((l.operator op).combine ((first :: texts).map tree)) := by
  have hgroups := fun text htext => exists_group_of_ofText (h text htext)
  have hlexes := lexes_joined hl fun text htext => (hgroups text htext).1
  have : Nonempty Chain := ⟨.one (.leaf .plain (.all 1))⟩
  choose! chain hnode hwritten using fun text htext => (hgroups text htext).2
  obtain ⟨hfirst, hrest⟩ := List.forall_mem_cons.1 fun text htext => hwritten text htext .plain
  have hchain := Chain.WrittenAs.linked (.one hfirst) hl hrest
  refine ofText_eq_ok_iff.2 ⟨_, (Chain.ofText_eq_ok_iff_of_lexes hlexes).2 hchain, ?_⟩
  have hplain : ∀ clause ∈ texts.map fun text => Clause.group .plain (chain text),
      clause.sign ≠ .excluded :=
    List.forall_mem_map.2 fun _ _ h => nomatch h
  have hnodes : ((first :: texts).map fun text => Clause.group .plain (chain text)).map
      (Clause.toNode field op) = (first :: texts).map tree := by
    rw [List.map_map]
    exact List.map_congr_left fun text htext =>
      (Clause.toNode_group ..).trans (hnode text htext)
  rw [Chain.toNode_linked hplain, ← hnodes]
  rfl

/-- A query in parentheses after a sign that excludes it. -/
theorem ofText_excluded {before : String} {ss : List Token} (hsign : SignWritten .excluded ss)
    (hbefore : ∀ {rest ts}, Lexes rest ts → Lexes (before.toList ++ rest) (ss ++ ts)) {q : Node}
    (h : ofText field op text = .ok q) :
    ofText field op (before ++ grouped text) = .ok (.bool [] [] [q]) := by
  obtain ⟨hfault, chain, rfl, hwritten⟩ := exists_group_of_ofText h
  have hlexes := hbefore (Lexes.grouped hfault .nil)
  rw [List.append_nil, List.append_nil, ← String.toList_append] at hlexes
  refine ofText_eq_ok_iff.2
    ⟨.one _, (Chain.ofText_eq_ok_iff_of_lexes hlexes).2 (.one (hwritten hsign)), ?_⟩
  rw [Chain.toNode, Chain.pending, Clause.toNode_group]
  rfl

/-! ### What combinations find -/

section

variable {ix : Index} {cache : Cache} {qs : List Node} {n : Nat}

theorem mem_execute_should (hcache : cache.Sound ix) (hqs : qs ≠ []) :
    n ∈ ((bool [] qs []).execute ix cache).1 ↔ ∃ q ∈ qs, n ∈ (q.execute ix cache).1 := by
  simp only [(finds_execute _ cache hcache).mem_iff, holds_bool]
  constructor
  · rintro ⟨hlive, -, hshould, -⟩
    obtain ⟨q, hq, hholds⟩ := hshould trivial hqs
    exact ⟨q, hq, hlive, hholds⟩
  · rintro ⟨q, hq, hlive, hholds⟩
    exact ⟨hlive, List.forall_mem_nil _, fun _ _ => ⟨q, hq, hholds⟩, List.forall_mem_nil _⟩

theorem mem_execute_must (hcache : cache.Sound ix) (hqs : qs ≠ []) :
    n ∈ ((bool qs [] []).execute ix cache).1 ↔ ∀ q ∈ qs, n ∈ (q.execute ix cache).1 := by
  obtain ⟨q, hq⟩ := List.exists_mem_of_ne_nil qs hqs
  simp only [(finds_execute _ cache hcache).mem_iff, holds_bool]
  constructor
  · rintro ⟨hlive, hmust, -⟩ r hr
    exact ⟨hlive, hmust r hr⟩
  · intro h
    exact ⟨(h q hq).1, fun r hr => (h r hr).2, fun _ hnil => absurd rfl hnil, List.forall_mem_nil _⟩

theorem mem_execute_mustNot (hcache : cache.Sound ix) {q : Node} :
    n ∈ ((bool [] [] [q]).execute ix cache).1 ↔ n ∈ ix.live ∧ n ∉ (q.execute ix cache).1 := by
  simp only [(finds_execute _ cache hcache).mem_iff, holds_bool]
  constructor
  · rintro ⟨hlive, -, -, hnot⟩
    exact ⟨hlive, fun h => hnot q (List.mem_singleton_self q) h.2⟩
  · rintro ⟨hlive, hnot⟩
    refine ⟨hlive, List.forall_mem_nil _, fun _ hnil => absurd rfl hnil, ?_⟩
    exact List.forall_mem_singleton.2 fun hq => hnot ⟨hlive, hq⟩

end

/-- Queries in parentheses compose. Each on its own keeps its tree, and is excluded by `NOT` or a
    minus; two or more are alternatives when joined by `OR`, are all required when joined by `AND`,
    and are combined by the default operator when they stand beside each other. With whatever sound
    cache, such combinations find the live documents that the query does not find, those that one
    of the queries finds, and those that all of them find. -/
theorem ofText_groups (field : String) (op : Operator) {texts : List String}
    (h : ∀ text ∈ texts, ofText field op text = .ok (tree text)) :
    (∀ text ∈ texts,
      ofText field op (grouped text) = .ok (tree text) ∧
      ofText field op ("NOT " ++ grouped text) = .ok (.bool [] [] [tree text]) ∧
      ofText field op ("-" ++ grouped text) = .ok (.bool [] [] [tree text]) ∧
      ∀ ix cache, Cache.Sound ix cache → ∀ n,
        (n ∈ ((bool [] [] [tree text]).execute ix cache).1 ↔
          n ∈ ix.live ∧ n ∉ ((tree text).execute ix cache).1)) ∧
    (2 ≤ texts.length →
      ofText field op (joined .or texts) = .ok (.bool [] (texts.map tree) []) ∧
      ofText field op (joined .and texts) = .ok (.bool (texts.map tree) [] []) ∧
      ofText field op (joined .beside texts) = .ok (match op with
        | .or => .bool [] (texts.map tree) []
        | .and => .bool (texts.map tree) [] []) ∧
      ∀ ix cache, Cache.Sound ix cache → ∀ n,
        (n ∈ ((bool [] (texts.map tree) []).execute ix cache).1 ↔
          ∃ text ∈ texts, n ∈ ((tree text).execute ix cache).1) ∧
        (n ∈ ((bool (texts.map tree) [] []).execute ix cache).1 ↔
          ∀ text ∈ texts, n ∈ ((tree text).execute ix cache).1)) := by
  constructor
  · intro text htext
    have hread := h text htext
    have hgrouped := ofText_joined .and (List.forall_mem_singleton.2 hread)
    rw [joined, List.map_singleton, String.intercalate_singleton] at hgrouped
    refine ⟨hgrouped, ?_, ?_, fun ix cache hcache n => mem_execute_mustNot hcache⟩
    · refine ofText_excluded .not (fun {rest ts} hrest => ?_) hread
      have hword : Lexes ('N' :: (['O', 'T'] ++ ' ' :: rest)) (.not :: ts) :=
        .spaced (by decide) (by decide) hrest
      exact hword
    · exact ofText_excluded .minus (.punctuation rfl (by decide)) hread
  · intro hlength
    match texts, h, hlength with
    | first :: second :: rest, h, _ =>
      have hne : (first :: second :: rest).map tree ≠ [] := List.cons_ne_nil _ _
      refine ⟨ofText_joined .or h, ofText_joined .and h, ?_, fun ix cache hcache n => ?_⟩
      · rw [ofText_joined .beside h]
        cases op <;> rfl
      · rw [mem_execute_should hcache hne, mem_execute_must hcache hne, List.forall_mem_map]
        simp only [List.mem_map, exists_exists_and_eq_and, and_true]

theorem ofText_groups_pair :
    let tree : String → Node := fun text =>
      if text = "a" then .term ⟨"content", "a", 1⟩ else .all 1
    (∀ text ∈ ["a", "*"], ofText "content" .or text = .ok (tree text)) ∧
      ofText "content" .or (joined .or ["a", "*"]) =
        .ok (.bool [] [.term ⟨"content", "a", 1⟩, .all 1] []) := by
  intro tree
  have hword : Lexes "a".toList [.term "a"] := by
    have hofWord : Token.ofWord ['a'] = .term "a" := by decide +kernel
    exact hofWord ▸ Lexes.name (by decide) (List.forall_mem_nil _) stops_nil .nil
  have hmark : Lexes "*".toList [.asterisk] := .punctuation rfl (by decide) .nil
  have ha : ofText "content" .or "a" = .ok (.term ⟨"content", "a", 1⟩) :=
    ofText_eq_ok_iff.2 ⟨_, (Chain.ofText_eq_ok_iff_of_lexes hword).2
      (.one (.leaf .plain (.value (.term (by decide)) .absent))), rfl⟩
  have hall : ofText "content" .or "*" = .ok (.all 1) :=
    ofText_eq_ok_iff.2 ⟨_, (Chain.ofText_eq_ok_iff_of_lexes hmark).2
      (.one (.leaf .plain (.all .absent))), rfl⟩
  have h : ∀ text ∈ ["a", "*"], ofText "content" .or text = .ok (tree text) :=
    List.forall_mem_cons.2 ⟨ha, List.forall_mem_singleton.2 hall⟩
  exact ⟨h, ((ofText_groups "content" .or h).2 (by decide)).1⟩

end Node

end QuantityQuery
