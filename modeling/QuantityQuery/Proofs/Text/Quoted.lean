import QuantityQuery.Proofs.Text.Span
import QuantityQuery.Text.Quoted

/-!
# Quoted text can be decoded

Different texts are quoted differently, and a quoted text is found from its end:
inside, a double quote never stands without a backslash before it.

* `flatMap_quoteChar_injective`: the characters between the quotes determine the
  text;
* `append_quote_inj`: so do they with any text before, as long as that text does
  not end in a backslash.
-/

namespace QuantityQuery

/-! ### Digits in base sixteen -/

theorem hexDigits_eq (n : Nat) :
    hexDigits n = (if n < 16 then [] else hexDigits (n / 16)) ++ [(n % 16).digitChar] := by
  rw [hexDigits, Nat.toDigits_eq_if (by decide)]
  split
  · rw [Nat.mod_eq_of_lt ‹_›]
    rfl
  · rfl

theorem hexDigits_ne_nil (n : Nat) : hexDigits n ≠ [] := Nat.toDigits_ne_nil

theorem digitChar_injOn {i j : Fin 16} (h : i.val.digitChar = j.val.digitChar) : i = j := by
  revert i j
  decide

theorem hexDigits_injective {m n : Nat} (h : hexDigits m = hexDigits n) : m = n := by
  induction m using Nat.strongRecOn generalizing n with
  | ind m ih =>
    rw [hexDigits_eq m, hexDigits_eq n] at h
    -- The last digits are those of the remainders, the digits before them those of the quotients.
    obtain ⟨hinit, hlast⟩ := List.append_inj' h rfl
    have hmod : m % 16 = n % 16 := congrArg Fin.val (digitChar_injOn
      (i := ⟨m % 16, Nat.mod_lt _ (by decide)⟩) (j := ⟨n % 16, Nat.mod_lt _ (by decide)⟩)
      (List.cons.inj hlast).1)
    split at hinit
    · split at hinit
      · omega
      · exact absurd hinit.symm (hexDigits_ne_nil _)
    · split at hinit
      · exact absurd hinit (hexDigits_ne_nil _)
      · have := ih (m / 16) (by omega) hinit
        omega

/-- Neither a brace nor a quote is a digit in base sixteen. -/
theorem not_mem_hexDigits {c : Char} (hc : ∀ i : Fin 16, i.val.digitChar ≠ c) (n : Nat) :
    c ∉ hexDigits n := by
  induction n using Nat.strongRecOn with
  | ind n ih =>
    rw [hexDigits_eq, List.mem_append, List.mem_singleton]
    rintro (h | h)
    · split at h
      · cases h
      · exact ih (n / 16) (by omega) h
    · exact hc ⟨n % 16, Nat.mod_lt _ (by decide)⟩ h.symm

/-! ### Characters -/

/-- The character that a backslash and the given character stand for. -/
def unquoteShort : Char → Char
  | 'n' => '\n'
  | 't' => '\t'
  | 'r' => '\r'
  | '0' => '\x00'
  | d => d

/-- A character is quoted as itself, as a backslash and a character that stands for it, or by its
    code point. -/
theorem quoteChar_cases (c : Char) :
    (quoteChar c = [c] ∧ c ≠ '\\' ∧ c ≠ '"') ∨
    (∃ d, quoteChar c = ['\\', d] ∧ d ≠ 'u' ∧ c = unquoteShort d) ∨
    quoteChar c = '\\' :: 'u' :: '\x7b' :: (hexDigits c.toNat ++ ['\x7d']) := by
  unfold quoteChar
  split
  case h_7 hquote hslash _ _ _ _ =>
    split
    · exact .inr (.inr rfl)
    · exact .inl ⟨rfl, hslash, hquote⟩
  all_goals exact .inr (.inl ⟨_, rfl, by decide, rfl⟩)

/-- No quoted character begins another one. -/
theorem quoteChar_append_inj {c d : Char} {r s : List Char}
    (h : quoteChar c ++ r = quoteChar d ++ s) : c = d ∧ r = s := by
  -- The first two characters tell the three forms apart, the brace ends a code point.
  have hbrace := fun n => not_mem_hexDigits (c := '\x7d') (by decide) n
  rcases quoteChar_cases c with ⟨hc, hne, _⟩ | ⟨a, hc, hu, hval⟩ | hc <;>
    rcases quoteChar_cases d with ⟨hd, hne', _⟩ | ⟨b, hd, hu', hval'⟩ | hd <;>
    simp only [hc, hd, List.cons_append, List.nil_append, List.cons.injEq, true_and,
      List.append_assoc] at h
  · exact h
  · exact absurd h.1 hne
  · exact absurd h.1 hne
  · exact absurd h.1.symm hne'
  · exact ⟨by rw [hval, hval', h.1], h.2⟩
  · exact absurd h.1 hu
  · exact absurd h.1.symm hne'
  · exact absurd h.1.symm hu'
  · obtain ⟨hhex, hrest⟩ := append_cons_inj_first (hbrace _) (hbrace _) h
    exact ⟨Char.toNat_inj.1 (hexDigits_injective hhex), hrest⟩

/-! ### Texts -/

theorem flatMap_quoteChar_injective {s t : List Char}
    (h : s.flatMap quoteChar = t.flatMap quoteChar) : s = t := by
  have hne : ∀ c, quoteChar c ≠ [] := fun c => by
    rcases quoteChar_cases c with ⟨hc, _⟩ | ⟨_, hc, _⟩ | hc <;> simp [hc]
  induction s generalizing t with
  | nil =>
    cases t with
    | nil => rfl
    | cons d t => simp [hne] at h
  | cons c s ih =>
    cases t with
    | nil => simp [hne] at h
    | cons d t =>
      obtain ⟨rfl, hrest⟩ := quoteChar_append_inj h
      rw [ih hrest]

/-- A double quote in a quoted character stands behind a backslash. -/
theorem getLast?_of_quoteChar_eq {c : Char} {z w : List Char} (h : quoteChar c = z ++ '"' :: w) :
    z.getLast? = some '\\' := by
  rcases quoteChar_cases c with ⟨hc, _, hne⟩ | ⟨d, hc, _, _⟩ | hc <;> rw [hc] at h
  · rcases List.append_eq_singleton_iff.1 h.symm with ⟨rfl, hw⟩ | ⟨_, hw⟩
    · exact absurd (List.cons.inj hw).1.symm hne
    · cases hw
  · match z, h with
    | [], h => cases (List.cons.inj h).1
    | [_], h => rw [(List.cons.inj h).1]; rfl
    | _ :: _ :: z, h => simp at h
  · have hmem : '"' ∈ '\\' :: 'u' :: '\x7b' :: (hexDigits c.toNat ++ ['\x7d']) :=
      h ▸ List.mem_append_right _ List.mem_cons_self
    have := not_mem_hexDigits (c := '"') (by decide) c.toNat
    simp [this] at hmem

/-- A double quote in a quoted text stands behind a backslash. -/
theorem getLast?_of_flatMap_quoteChar_eq {s z w : List Char}
    (h : s.flatMap quoteChar = z ++ '"' :: w) : z.getLast? = some '\\' := by
  induction s generalizing z with
  | nil => simp at h
  | cons c s ih =>
    rw [List.flatMap_cons] at h
    -- The quote stands either beyond the first character or within it.
    rcases List.append_eq_append_iff.1 h with ⟨z', rfl, hz'⟩ | ⟨w', hc, hw'⟩
    · rw [List.getLast?_append, ih hz', Option.some_or]
    · cases w' with
      | nil =>
        have := ih (z := []) hw'.symm
        cases this
      | cons d w' =>
        obtain ⟨rfl, _⟩ := List.cons.inj hw'
        exact getLast?_of_quoteChar_eq hc

/-- A quoted text at the end is told apart from what stands before it. -/
theorem append_quote_inj {x y s t : List Char} (hx : x.getLast? ≠ some '\\')
    (hy : y.getLast? ≠ some '\\')
    (h : x ++ '"' :: s.flatMap quoteChar = y ++ '"' :: t.flatMap quoteChar) : x = y ∧ s = t := by
  -- If one opening quote stood before the other, the later one would be part of the quoted text,
  -- so a backslash would stand before it.
  rcases List.append_eq_append_iff.1 h with ⟨z, rfl, hz⟩ | ⟨z, rfl, hz⟩
  · cases z with
    | nil => exact ⟨by simp, flatMap_quoteChar_injective (List.cons.inj hz).2⟩
    | cons d z =>
      have hlast := getLast?_of_flatMap_quoteChar_eq (List.cons.inj hz).2
      rw [List.getLast?_append, List.getLast?_cons, hlast] at hy
      exact absurd rfl hy
  · cases z with
    | nil => exact ⟨by simp, (flatMap_quoteChar_injective (List.cons.inj hz).2).symm⟩
    | cons d z =>
      have hlast := getLast?_of_flatMap_quoteChar_eq (List.cons.inj hz).2
      rw [List.getLast?_append, List.getLast?_cons, hlast] at hx
      exact absurd rfl hx

end QuantityQuery
