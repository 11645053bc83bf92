import QuantityQuery.Proofs.Query.Grammar
import QuantityQuery.Proofs.Query.Lexer
import QuantityQuery.Query.Asking

/-!
# Reading token by token

A query is read in two ways: from the list of its tokens, or from a lexer that is asked for one
token after the other. Both have the same outcome (`Asking.exists_ofText_eq`). So the second
one ends, on every text, and it never asks for more than the tokens and the end of the text
behind them (`Asking.ofText_ends`).

That a reader has the same outcome as a reader of lists (`Asking.Follows`) is put together like
the readers are: from what `advance` does on a feed that stands before a list of tokens, and
from what may follow it. Clauses and chains are read by recursion, which ends as the readers of
lists do, with fewer tokens each time.
-/

namespace QuantityQuery

variable {α β γ : Type} {fault : Option QueryError} {course : List Answer} {s s' : Feed}

/-! ### Runs of readers -/

namespace Asking

variable {p : Asking α} {f : α → Asking β} {a : α} {e : QueryError} {outcome : Except QueryError β}

/-- A reader ends on a feed with an outcome, and leaves the feed `s'`. -/
def Runs (p : Asking α) (s : Feed) (outcome : Except QueryError α) (s' : Feed) : Prop :=
  p.run.run s = some (outcome, s')

theorem runs_pure (a : α) (s : Feed) : Runs (pure a) s (.ok a) s := rfl

theorem runs_throw (e : QueryError) (s : Feed) : Runs (throw e : Asking α) s (.error e) s := rfl

theorem runs_look (s : Feed) : look.Runs s (.ok s.current) s := rfl

theorem runs_get (s : Feed) : Runs get s (.ok s) s := rfl

theorem Runs.bind {s₁ s₂ : Feed} (h : p.Runs s (.ok a) s₁) (hf : (f a).Runs s₁ outcome s₂) :
    (p >>= f).Runs s outcome s₂ := by
  rw [Runs, ExceptT.run_bind, StateT.run_bind, h]
  exact hf

theorem Runs.bind_error (h : p.Runs s (.error e) s') : (p >>= f).Runs s (.error e) s' := by
  rw [Runs, ExceptT.run_bind, StateT.run_bind, h]
  rfl

theorem runs_advance {current : Option Token} {l : Lexer} (h : s.lexer.next = (.ok current, l)) :
    advance.Runs s (.ok ()) ⟨l, current, s.answers ++ [.ok current]⟩ := by
  refine (runs_get s).bind ?_
  simp only [h]
  rfl

theorem runs_advance_error {l : Lexer} (h : s.lexer.next = (.error e, l)) :
    advance.Runs s (.error e) ⟨l, s.current, s.answers ++ [.error e]⟩ := by
  refine (runs_get s).bind ?_
  simp only [h]
  rfl

end Asking

/-! ### Feeds and lists of tokens -/

/-- A feed stands before the tokens of a list: the first one is looked at, the others are still to
    be asked for, and then the text ends or has a fault. In the end the answers are `course`. -/
inductive Feed.Stands (fault : Option QueryError) (course : List Answer) :
    Feed → List Token → Prop
  | finish (l : Lexer) : Stands fault course ⟨l, none, course⟩ []
  | token {l : Lexer} {token : Token} {rest : List Token} {answers : List Answer} :
      l.Answers (answersOf fault rest) → answers ++ answersOf fault rest = course →
      Stands fault course ⟨l, some token, answers⟩ (token :: rest)

namespace Feed.Stands

variable {ts rest : List Token} {t u : Token}

theorem current_eq (h : s.Stands fault course ts) : s.current = ts.head? := by
  cases h <;> rfl

theorem answers_prefix (h : s.Stands fault course ts) : s.answers <+: course := by
  cases h with
  | finish => exact List.prefix_rfl
  | token _ h => exact h ▸ List.prefix_append _ _

/-- Asked for a token that is there, the lexer gives it. -/
theorem runs_advance (h : s.Stands fault course (t :: u :: rest)) :
    ∃ s', Asking.advance.Runs s (.ok ()) s' ∧ s'.Stands fault course (u :: rest) := by
  cases h with
  | token hanswers hcourse =>
    cases hanswers with
    | token hnext hanswers =>
      exact ⟨_, Asking.runs_advance hnext, .token hanswers (by rw [← hcourse, answersOf]; simp)⟩

end Feed.Stands

namespace Asking

/-- A reader has the outcome of a reader of lists: the same failure, or results related by `R`.
    What the lexer has answered is the beginning of `course`. -/
inductive Follows (course : List Answer) (s : Feed) (p : Asking α) (R : α → Feed → β → Prop) :
    Except QueryError β → Prop
  | ok {a : α} {s' : Feed} {b : β} : p.Runs s (.ok a) s' → R a s' b → Follows course s p R (.ok b)
  | error {e : QueryError} {s' : Feed} : p.Runs s (.error e) s' → s'.answers <+: course →
      Follows course s p R (.error e)

section

variable {δ : Type} {p : Asking α} {f : α → Asking γ} {a : α} {e : QueryError}
  {R : α → Feed → β → Prop} {R' : γ → Feed → δ → Prop} {out : Except QueryError β}
  {g : β → Except QueryError δ}

theorem Runs.follows {out : Except QueryError δ} (h : p.Runs s (.ok a) s')
    (hf : Follows course s' (f a) R' out) : Follows course s (p >>= f) R' out := by
  cases hf with
  | error hrun hprefix => exact .error (h.bind hrun) hprefix
  | ok hrun hR => exact .ok (h.bind hrun) hR

theorem Follows.bind (h : Follows course s p R out)
    (hf : ∀ a s' b, R a s' b → Follows course s' (f a) R' (g b)) :
    Follows course s (p >>= f) R' (out >>= g) := by
  cases h with
  | ok hrun hR => exact hrun.follows (hf _ _ _ hR)
  | error hrun hprefix => exact .error hrun.bind_error hprefix

/-- What a reader of lists goes on to compute changes only how the results are related. -/
theorem Follows.map {R' : α → Feed → δ → Prop} {g : β → δ} (h : Follows course s p R out)
    (hR : ∀ {a s' b}, R a s' b → R' a s' (g b)) :
    Follows course s p R' (out >>= fun b => pure (g b)) := by
  cases h with
  | ok hrun h => exact .ok hrun (hR h)
  | error hrun hprefix => exact .error hrun hprefix

/-- The token that is looked at is the first one of the list. -/
theorem follows_look {ts : List Token} {f : Option Token → Asking γ} {out : Except QueryError δ}
    (hs : s.Stands fault course ts) (h : Follows course s (f ts.head?) R' out) :
    Follows course s (look >>= f) R' out :=
  (runs_look s).follows (hs.current_eq ▸ h)

theorem follows_pure {b : β} (h : R a s b) : Follows course s (pure a) R (.ok b) :=
  .ok (runs_pure a s) h

theorem follows_throw (h : s.answers <+: course) : Follows course s (throw e) R (.error e) :=
  .error (runs_throw e s) h

end

/-- A reader returns what a reader of lists takes, and stands before the tokens that are left. -/
def Returns (fault : Option QueryError) (course : List Answer) {P : List Token → Prop} (a : α)
    (s : Feed) (out : α × { rest : List Token // P rest }) : Prop :=
  a = out.1 ∧ s.Stands fault course out.2

/-- After such a reader, the next one begins before the tokens that are left. -/
theorem Follows.bind_returns {δ : Type} {P : List Token → Prop} {p : Asking α} {f : α → Asking γ}
    {R : γ → Feed → δ → Prop} {out : Except QueryError (α × { rest : List Token // P rest })}
    {g : α × { rest : List Token // P rest } → Except QueryError δ}
    (h : Follows course s p (Returns fault course) out)
    (hf : ∀ a rest hrest s', s'.Stands fault course rest →
      Follows course s' (f a) R (g (a, ⟨rest, hrest⟩))) :
    Follows course s (p >>= f) R (out >>= g) := by
  refine h.bind ?_
  rintro a s' ⟨_, rest, hrest⟩ ⟨rfl, hs'⟩
  exact hf a rest hrest s' hs'

section

variable {ts rest : List Token} {t : Token}

/-- The token behind the one that is looked at is reached, or the fault behind it. -/
theorem follows_advance (hs : s.Stands fault course (t :: rest)) :
    Follows course s advance (fun _ s' _ => s'.Stands fault course rest) (reach fault rest) := by
  cases rest with
  | cons u rest =>
    obtain ⟨s', hrun, hs'⟩ := hs.runs_advance
    exact .ok hrun hs'
  | nil =>
    cases hs with
    | token hanswers hcourse =>
      subst hcourse
      cases fault with
      | none =>
        cases hanswers with
        | finish hnext => exact .ok (runs_advance hnext) (.finish _)
      | some e =>
        cases hanswers with
        | fault hnext => exact .error (runs_advance_error hnext) List.prefix_rfl

theorem follows_expect (wanted : Token) (hs : s.Stands fault course ts) :
    Follows course s (Asking.expect wanted) (fun _ s' rest => s'.Stands fault course rest.1)
      (QuantityQuery.expect fault wanted ts) := by
  refine follows_look hs ?_
  cases ts with
  | nil => exact follows_throw hs.answers_prefix
  | cons t rest =>
    by_cases ht : t = wanted
    · subst ht
      simp only [List.head?_cons, if_true, QuantityQuery.expect]
      exact (follows_advance hs).map id
    · simp only [List.head?_cons, Option.some.injEq, ht, if_false, QuantityQuery.expect]
      exact follows_throw hs.answers_prefix

theorem follows_boost (hs : s.Stands fault course ts) :
    Follows course s boost (Returns fault course) (readBoost fault ts) := by
  refine follows_look hs ?_
  cases ts with
  | nil => exact follows_pure ⟨rfl, hs⟩
  | cons t rest =>
    cases t
    case tilde => exact follows_throw hs.answers_prefix
    case caret boost => exact (follows_advance hs).bind fun _ _ _ hs' => follows_pure ⟨rfl, hs'⟩
    all_goals exact follows_pure ⟨rfl, hs⟩

theorem follows_term (field : Option String) (text : String) (hs : s.Stands fault course ts) :
    Follows course s (term field text) (Returns fault course) (readTerm fault field text ts) := by
  unfold term readTerm
  split
  · exact follows_throw hs.answers_prefix
  · refine (follows_boost hs).bind_returns fun boost rest hrest s' hs' => ?_
    exact follows_pure ⟨rfl, hs'⟩

theorem follows_bound (hs : s.Stands fault course ts) :
    Follows course s bound (Returns fault course) (readBound fault ts) := by
  refine follows_look hs ?_
  cases ts with
  | nil => exact follows_throw hs.answers_prefix
  | cons t rest =>
    cases t
    case asterisk | number | term | quoted =>
      exact (follows_advance hs).bind fun _ _ _ hs' => follows_pure ⟨rfl, hs'⟩
    all_goals exact follows_throw hs.answers_prefix

theorem follows_closing (hs : s.Stands fault course ts) :
    Follows course s closing (Returns fault course) (readClosing fault ts) := by
  refine follows_look hs ?_
  cases ts with
  | nil => exact follows_throw hs.answers_prefix
  | cons t rest =>
    cases t
    case rightBracket | rightBrace =>
      exact (follows_advance hs).bind fun _ _ _ hs' => follows_pure ⟨rfl, hs'⟩
    all_goals exact follows_throw hs.answers_prefix

theorem follows_range (field : String) (lowerIn : Bool) (hs : s.Stands fault course ts) :
    Follows course s (range field lowerIn) (Returns fault course)
      (readRange fault field lowerIn ts) := by
  refine (follows_bound hs).bind_returns fun lower ts₁ h₁ s₁ hs₁ => ?_
  refine (follows_expect .upTo hs₁).bind ?_
  rintro _ s₂ ⟨ts₂, h₂⟩ hs₂
  refine (follows_bound hs₂).bind_returns fun upper ts₃ h₃ s₃ hs₃ => ?_
  refine (follows_closing hs₃).bind_returns fun upperIn ts₄ h₄ s₄ hs₄ => ?_
  refine (follows_boost hs₄).bind_returns fun boost ts₅ h₅ s₅ hs₅ => ?_
  exact follows_pure ⟨rfl, hs₅⟩

theorem follows_fieldValue (field : String) (hs : s.Stands fault course ts) :
    Follows course s (fieldValue field) (Returns fault course) (readFieldValue fault field ts) := by
  refine follows_look hs ?_
  cases ts with
  | nil => exact follows_throw hs.answers_prefix
  | cons t rest =>
    cases t
    case leftBracket | leftBrace =>
      refine (follows_advance hs).bind fun _ s₁ _ hs₁ => ?_
      exact (follows_range field _ hs₁).map id
    case asterisk =>
      refine (follows_advance hs).bind fun _ s₁ _ hs₁ => ?_
      refine (follows_boost hs₁).bind_returns fun boost ts₂ h₂ s₂ hs₂ => ?_
      exact follows_pure ⟨rfl, hs₂⟩
    case term | quoted | number =>
      refine (follows_advance hs).bind fun _ s₁ _ hs₁ => ?_
      exact (follows_term (some field) _ hs₁).map id
    all_goals exact follows_throw hs.answers_prefix

theorem follows_leaf (hs : s.Stands fault course ts) :
    Follows course s leaf (Returns fault course) (readLeaf fault ts) := by
  refine follows_look hs ?_
  cases ts with
  | nil => exact follows_throw hs.answers_prefix
  | cons t rest =>
    cases t
    case asterisk =>
      by_cases hcolon : rest.head? = some .colon
      · obtain ⟨more, rfl⟩ := List.head?_eq_some_iff.1 hcolon
        obtain ⟨s₁, hrun, hs₁⟩ := hs.runs_advance
        refine hrun.follows (follows_look hs₁ ?_)
        rw [List.head?_cons, if_pos rfl]
        refine (follows_advance hs₁).bind fun _ s₂ _ hs₂ => ?_
        refine (follows_expect .asterisk hs₂).bind ?_
        rintro _ s₃ ⟨ts₃, h₃⟩ hs₃
        refine (follows_boost hs₃).bind_returns fun boost ts₄ h₄ s₄ hs₄ => ?_
        exact follows_pure ⟨rfl, hs₄⟩
      · rw [readLeaf.eq_2 _ _ fun more h => hcolon (by rw [h]; rfl)]
        refine (follows_advance hs).bind fun _ s₁ _ hs₁ => follows_look hs₁ ?_
        rw [if_neg hcolon]
        refine (follows_boost hs₁).bind_returns fun boost ts₂ h₂ s₂ hs₂ => ?_
        exact follows_pure ⟨rfl, hs₂⟩
    case term text =>
      by_cases hcolon : rest.head? = some .colon
      · obtain ⟨more, rfl⟩ := List.head?_eq_some_iff.1 hcolon
        obtain ⟨s₁, hrun, hs₁⟩ := hs.runs_advance
        refine hrun.follows (follows_look hs₁ ?_)
        rw [List.head?_cons, if_pos rfl]
        refine (follows_advance hs₁).bind fun _ s₂ _ hs₂ => ?_
        exact (follows_fieldValue text hs₂).map id
      · rw [readLeaf.eq_4 _ _ _ fun more h => hcolon (by rw [h]; rfl)]
        refine (follows_advance hs).bind fun _ s₁ _ hs₁ => follows_look hs₁ ?_
        rw [if_neg hcolon]
        exact (follows_term none text hs₁).map id
    case quoted | number =>
      refine (follows_advance hs).bind fun _ s₁ _ hs₁ => ?_
      exact (follows_term none _ hs₁).map id
    all_goals exact follows_throw hs.answers_prefix

theorem follows_sign (hs : s.Stands fault course ts) :
    Follows course s sign (Returns fault course) (readSign fault ts) := by
  refine follows_look hs ?_
  cases ts with
  | nil => exact follows_pure ⟨rfl, hs⟩
  | cons t rest =>
    cases t
    case not | minus | plus =>
      exact (follows_advance hs).bind fun _ _ _ hs' => follows_pure ⟨rfl, hs'⟩
    all_goals exact follows_pure ⟨rfl, hs⟩

end

end Asking

/-! ### Clauses and chains

The readers of lists for clauses and chains, as the sequences of readers that they are. -/

section

variable (fault) (ts : List Token)

theorem readClause_eq : readClause fault ts = do
    let (sign, ⟨ts₁, h₁⟩) ← readSign fault ts
    match ← readOpening fault ts₁ with
    | none =>
      let (leaf, ⟨rest, h₂⟩) ← readLeaf fault ts₁
      return (.leaf sign leaf, ⟨rest, Nat.lt_of_lt_of_le h₂ h₁⟩)
    | some ⟨ts₂, h₂⟩ =>
      let (chain, ⟨ts₃, h₃⟩) ← readChain fault ts₂
      let ⟨rest, h₄⟩ ← QuantityQuery.expect fault .rightParen ts₃
      return (.group sign chain,
        ⟨rest, Nat.lt_trans h₄ (Nat.lt_trans h₃ (Nat.lt_of_lt_of_le h₂ h₁))⟩) := by
  rw [readClause]
  rcases readSign fault ts with e | ⟨sign, ts₁, h₁⟩
  · rfl
  dsimp only [bind, Except.bind]
  rcases readOpening fault ts₁ with e | _ | ⟨ts₂, h₂⟩
  · rfl
  · dsimp only
    cases readLeaf fault ts₁ <;> rfl
  · dsimp only
    rcases readChain fault ts₂ with e | ⟨chain, ts₃, h₃⟩
    · rfl
    · dsimp only
      cases QuantityQuery.expect fault .rightParen ts₃ <;> rfl

theorem readChain_eq : readChain fault ts = do
    let (clause, ⟨rest, h⟩) ← readClause fault ts
    let (chain, ⟨rest₁, h₁⟩) ← readLinks fault (.one clause) rest
    return (chain, ⟨rest₁, Nat.lt_of_le_of_lt h₁ h⟩) := by
  rw [readChain]
  rcases readClause fault ts with e | ⟨clause, rest, h⟩
  · rfl
  · dsimp only [bind, Except.bind]
    cases readLinks fault (.one clause) rest <;> rfl

theorem readLinks_eq (chain : Chain) : readLinks fault chain ts = do
    match ← readLink fault ts with
    | none => return (chain, ⟨ts, Nat.le_refl _⟩)
    | some (link, ⟨ts₁, h₁⟩) =>
      let (clause, ⟨rest, h₂⟩) ← readClause fault ts₁
      let (chain, ⟨rest₁, h₃⟩) ← readLinks fault (.link chain link clause) rest
      return (chain, ⟨rest₁, Nat.le_trans h₃ (Nat.le_trans (Nat.le_of_lt h₂) h₁)⟩) := by
  rw [readLinks]
  rcases readLink fault ts with e | _ | ⟨link, ts₁, h₁⟩
  · rfl
  · rfl
  · dsimp only [bind, Except.bind]
    rcases readClause fault ts₁ with e | ⟨clause, rest, h⟩
    · rfl
    · dsimp only
      cases readLinks fault (.link chain link clause) rest <;> rfl

end

namespace Asking

/-- One loop over the links of a chain does what two loops do, one inside the other: the inner
    loop stops before an alternative, and the outer one goes on with it. -/
def links (inner outer : Nat) (before : Chain) : Asking Chain := do
  alternatives outer (← requirements inner before)

section

variable {ts rest : List Token} {t : Token}

theorem follows_opening (hs : s.Stands fault course ts) (h : ts.head? = some .leftParen) :
    Follows course s advance
      (fun _ s' opening => ∃ out, opening = some out ∧ s'.Stands fault course out.1)
      (readOpening fault ts) := by
  obtain ⟨rest, rfl⟩ := List.head?_eq_some_iff.1 h
  exact (follows_advance hs).map fun hs' => ⟨_, rfl, hs'⟩

theorem follows_link {l : Link} (hl : LinkWritten l [t]) (hs : s.Stands fault course (t :: rest)) :
    Follows course s advance
      (fun _ s' link => ∃ hrest, link = some (l, ⟨rest, hrest⟩) ∧ s'.Stands fault course rest)
      (readLink fault (t :: rest)) := by
  cases hl with
  | and => exact (follows_advance hs).map fun hs' => ⟨_, rfl, hs'⟩
  | or => exact (follows_advance hs).map fun hs' => ⟨_, rfl, hs'⟩

theorem readOpening_eq_none (h : ts.head? ≠ some .leftParen) : readOpening fault ts = .ok none := by
  unfold readOpening
  split
  · exact absurd rfl h
  · rfl

end

/-- A depth that is enough for something is the successor of another one. -/
theorem exists_eq_succ {least depth : Nat} (h : least + 1 ≤ depth) :
    ∃ k, depth = k + 1 ∧ least ≤ k := by
  cases depth with
  | zero => exact absurd h (Nat.not_succ_le_zero _)
  | succ k => exact ⟨k, rfl, Nat.le_of_succ_le_succ h⟩

mutual

/-- A clause is read alike, and so are chains, if the depth is enough for their tokens. -/
theorem follows_clause {ts : List Token} {s : Feed} {depth : Nat} (hs : s.Stands fault course ts)
    (hdepth : 3 * ts.length + 1 ≤ depth) :
    Follows course s (clause depth) (Returns fault course) (readClause fault ts) := by
  obtain ⟨depth, rfl, hdepth⟩ := exists_eq_succ hdepth
  rw [clause, readClause_eq]
  refine (follows_sign hs).bind_returns fun sign ts₁ h₁ s₁ hs₁ => ?_
  refine follows_look hs₁ ?_
  by_cases hparen : ts₁.head? = some .leftParen
  · rw [if_pos hparen]
    refine (follows_opening hs₁ hparen).bind ?_
    rintro _ s₂ _ ⟨⟨ts₂, h₂⟩, rfl, hs₂⟩
    have hlt : ts₂.length < ts₁.length := h₂
    have hchain : 3 * ts₂.length + 3 ≤ depth := by omega
    refine (follows_chain hs₂ hchain).bind_returns fun chain ts₃ h₃ s₃ hs₃ => ?_
    refine (follows_expect .rightParen hs₃).bind ?_
    rintro _ s₄ ⟨ts₄, h₄⟩ hs₄
    exact follows_pure ⟨rfl, hs₄⟩
  · simp only [if_neg hparen, readOpening_eq_none hparen]
    refine (follows_leaf hs₁).bind_returns fun leaf ts₂ h₂ s₂ hs₂ => ?_
    exact follows_pure ⟨rfl, hs₂⟩
termination_by 2 * ts.length

theorem follows_chain {ts : List Token} {s : Feed} {depth : Nat} (hs : s.Stands fault course ts)
    (hdepth : 3 * ts.length + 3 ≤ depth) :
    Follows course s (chain depth) (Returns fault course) (readChain fault ts) := by
  obtain ⟨outer, rfl, houter⟩ := exists_eq_succ hdepth
  obtain ⟨inner, rfl, hinner⟩ := exists_eq_succ houter
  rw [chain, conjunction, bind_assoc, readChain_eq]
  refine (follows_clause hs hinner).bind_returns fun first ts₁ h₁ s₁ hs₁ => ?_
  exact (follows_links (.one first) hs₁ (by omega) (by omega)).map id
termination_by 2 * ts.length + 1

theorem follows_links (before : Chain) {ts : List Token} {s : Feed} {inner outer : Nat}
    (hs : s.Stands fault course ts) (hin : 3 * ts.length + 2 ≤ inner)
    (hout : 3 * ts.length + 1 ≤ outer) :
    Follows course s (links inner outer before) (Returns fault course)
      (readLinks fault before ts) := by
  -- A further clause, and what is linked to it.
  have hfurther : ∀ (link : Link) {s₁ : Feed} {ts₁ : List Token} {depth outer : Nat}
      (h₁ : ts₁.length ≤ ts.length), s₁.Stands fault course ts₁ →
      3 * ts₁.length + 1 ≤ depth → 3 * ts₁.length ≤ outer + 2 →
      Follows course s₁
        (clause depth >>= fun further => links depth outer (.link before link further))
        (Returns fault course) (do
          let (clause, ⟨rest, h₂⟩) ← readClause fault ts₁
          let (chain, ⟨rest₁, h₃⟩) ← readLinks fault (.link before link clause) rest
          let hrest := Nat.le_trans h₃ (Nat.le_trans (Nat.le_of_lt h₂) h₁)
          return (chain, (⟨rest₁, hrest⟩ : Left ts))) := by
    intro link s₁ ts₁ depth outer h₁ hs₁ hdepth houter
    refine (follows_clause hs₁ hdepth).bind_returns fun further ts₂ h₂ s₂ hs₂ => ?_
    exact (follows_links (.link before link further) hs₂ (by omega) (by omega)).map id
  obtain ⟨inner, rfl, hinner⟩ := exists_eq_succ hin
  obtain ⟨outer, rfl, houter⟩ := exists_eq_succ hout
  rw [links, readLinks_eq, requirements, bind_assoc]
  refine follows_look hs ?_
  -- Where the chain is not linked to a clause, both loops stop.
  have hstop : ts.head? ≠ some .or → Follows course s (pure before >>= alternatives (outer + 1))
      (Returns fault course) (.ok (before, (⟨ts, Nat.le_refl _⟩ : Left ts))) := by
    intro hor
    rw [pure_bind, alternatives]
    refine follows_look hs ?_
    rw [if_neg hor]
    exact follows_pure ⟨rfl, hs⟩
  cases ts with
  | nil => exact hstop nofun
  | cons t rest =>
    cases t
    case and =>
      dsimp only [List.head?_cons]
      rw [bind_assoc]
      refine (follows_link .and hs).bind ?_
      rintro _ s₁ _ ⟨hrest, rfl, hs₁⟩
      rw [bind_assoc]
      exact hfurther .and hrest hs₁ (by omega) (by omega)
    case or =>
      dsimp only [List.head?_cons]
      rw [pure_bind, alternatives]
      refine follows_look hs ?_
      rw [List.head?_cons, if_pos rfl]
      refine (follows_link .or hs).bind ?_
      rintro _ s₁ _ ⟨hrest, rfl, hs₁⟩
      obtain ⟨depth, rfl, hdepth⟩ : ∃ k, outer = k + 1 ∧ 3 * rest.length + 2 ≤ k :=
        exists_eq_succ houter
      rw [conjunction, bind_assoc]
      exact hfurther .or hrest hs₁ (by omega) (by omega)
    case not | minus | plus | term | quoted | number | leftParen | asterisk =>
      dsimp only [List.head?_cons]
      rw [bind_assoc]
      exact hfurther .beside (Nat.le_refl _) hs (by omega) (by omega)
    all_goals exact hstop nofun
termination_by 2 * ts.length + 1

end

/-! ### Whole texts -/

section

variable {ts : List Token} {depth : Nat}

theorem follows_query (hs : s.Stands fault course ts) (hreach : reach fault ts = .ok ())
    (hdepth : 3 * ts.length + 3 ≤ depth) :
    Follows course s (query depth) (fun chain s' out => chain = out ∧ s'.Stands fault course [])
      (Chain.ofTokens fault ts) := by
  rw [Chain.ofTokens, hreach]
  refine follows_look hs ?_
  cases ts with
  | nil => exact follows_throw hs.answers_prefix
  | cons t rest =>
    refine (follows_chain hs hdepth).bind_returns fun chain left _ s₁ hs₁ => follows_look hs₁ ?_
    cases left with
    | nil => exact follows_pure ⟨rfl, hs₁⟩
    | cons => exact follows_throw hs₁.answers_prefix

theorem exists_runs_query (hs : s.Stands fault course ts) (hreach : reach fault ts = .ok ())
    (hdepth : 3 * ts.length + 3 ≤ depth) :
    ∃ s', (query depth).Runs s (Chain.ofTokens fault ts) s' ∧ s'.answers <+: course := by
  have h := follows_query hs hreach hdepth
  generalize Chain.ofTokens fault ts = out at h ⊢
  cases h with
  | error hrun hprefix => exact ⟨_, hrun, hprefix⟩
  | ok hrun hR =>
    obtain ⟨rfl, hs'⟩ := hR
    exact ⟨_, hrun, hs'.answers_prefix⟩

/-- A query is read from the first answer on, if that is no fault. -/
theorem exists_ofText_of_next {text : String} {l : Lexer} {current : Option Token}
    (hnext : (Lexer.ofText text).next = (.ok current, l))
    (hs : Feed.Stands fault course ⟨l, current, [.ok current]⟩ ts)
    (hreach : reach fault ts = .ok ()) (hdepth : 3 * ts.length + 3 ≤ depth) :
    ∃ answers, ofText depth text = some (Chain.ofTokens fault ts, answers) ∧
      answers <+: course := by
  obtain ⟨s', hrun, hprefix⟩ := exists_runs_query hs hreach hdepth
  refine ⟨s'.answers, ?_, hprefix⟩
  rw [ofText, hnext]
  exact congrArg (Option.map _) hrun

end

/-- Token by token a text writes the same chain, or has the same fault, and the answers of the
    lexer are the first ones of its reading. -/
theorem exists_ofText_eq {text : String} {depth : Nat} (hdepth : 3 * text.length + 3 ≤ depth) :
    ∃ answers, ofText depth text = some (Chain.ofText text, answers) ∧
      answers <+: (Reading.ofText text).answers := by
  have hanswers := (Lexer.ofText text).answers_reading
  rw [Lexer.reading_ofText, Reading.answers] at hanswers
  have hlength : (Reading.ofText text).tokens.length + 1 ≤ text.length + 1 :=
    length_answersOf _ _ ▸ hanswers.length_le
  have hdepth : 3 * (Reading.ofText text).tokens.length + 3 ≤ depth := by omega
  rw [Reading.answers, Chain.ofText]
  rcases htokens : (Reading.ofText text).tokens with _ | ⟨t, rest⟩
  · rcases hfault : (Reading.ofText text).fault with _ | e
    all_goals rw [htokens, hfault] at hanswers
    · cases hanswers with
      | finish hnext => exact exists_ofText_of_next hnext (.finish _) rfl (htokens ▸ hdepth)
    · cases hanswers with
      | fault hnext => exact ⟨_, by rw [ofText, hnext]; rfl, List.prefix_rfl⟩
  · rw [htokens] at hanswers hdepth
    cases hanswers with
    | token hnext hanswers =>
      exact exists_ofText_of_next hnext (.token hanswers rfl) (by cases rest <;> rfl) hdepth

/-- Reading ends on every text and loses no character of it. A lexer stays in its text, and with
    every token it gives it passes at least one character: blanks, and then what the token is
    written with. Its answers are the tokens of the lexemes that the text falls into. A query is
    read with the first ones of these answers, at most one more than there are characters and
    none after the end of the text; its readers call each other to a depth that is linear in
    the number of characters. -/
theorem ofText_ends (text : String) :
    (Lexer.ofText text).IsIn text.toList ∧
    (∀ l : Lexer, l.IsIn text.toList → l.next.2.IsIn text.toList ∧
      ∀ token, l.next.1 = .ok (some token) →
        l.Passes token l.next.2 ∧ l.position + 1 ≤ l.next.2.position) ∧
    (Lexer.ofText text).Answers (Reading.ofText text).answers ∧
    (Reading.ofText text).Splits text.toList ∧
    ∀ depth, 3 * text.length + 3 ≤ depth →
      ∃ answers, ofText depth text = some (Chain.ofText text, answers) ∧
        answers <+: (Reading.ofText text).answers ∧ answers.length ≤ text.length + 1 ∧
        ∀ answer ∈ answers.dropLast, ∃ token, answer = .ok (some token) := by
  refine ⟨Lexer.isIn_ofText text, fun l hl => ⟨hl.next, fun token htoken => ?_⟩,
    Lexer.answers_reading _, Reading.splits_readFrom 0 _, fun depth hdepth => ?_⟩
  · have hpasses := Lexer.passes_of_next htoken
    exact ⟨hpasses, hpasses.position_lt⟩
  · obtain ⟨answers, heq, hprefix⟩ := exists_ofText_eq hdepth
    have hlength := (Lexer.answers_reading (.ofText text)).length_le
    exact ⟨answers, heq, hprefix, hprefix.length_le.trans hlength,
      exists_token_of_mem_dropLast hprefix⟩

/-- Four characters, four tokens, and the end of the text. -/
example : (ofText 15 "*:*^").map (·.2.length) = some 5 := by decide +kernel

end Asking

end QuantityQuery
