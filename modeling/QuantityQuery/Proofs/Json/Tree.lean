import QuantityQuery.Json.Record
import QuantityQuery.Proofs.Json.Escape
import QuantityQuery.Proofs.Json.Literal

/-!
# JSON texts of trees

The text of a tree is read as the tree (`Json.IsProper.ofText_encode`), so what is read from the
text is what is read from the tree (`Json.IsProper.decode_encode`). The trees are those that are
written: with no break in them, with no half of a pair of surrogates in a string, and with numbers
as they are written.

* `Json.Ends`: what a part of a text is read as, and where it ends;
* `Json.ReadsBack`: a tree is read where its text stands, before anything that does not go on with a
  number.
-/

namespace QuantityQuery

/-- What follows a successful step is what comes of its result. -/
theorem bind_eq_ok {ε α β : Type} {x : Except ε α} {f : α → Except ε β} {b : β} :
    x >>= f = .ok b ↔ ∃ a, x = .ok a ∧ f a = .ok b := by
  cases x with
  | error e => exact ⟨(nomatch ·), fun ⟨_, h, _⟩ => nomatch h⟩
  | ok a =>
    refine ⟨fun h => ⟨a, rfl, h⟩, ?_⟩
    rintro ⟨a', ha, hb⟩
    cases ha
    exact hb

theorem map_eq_ok {ε α β : Type} {x : Except ε α} {f : α → β} {b : β} :
    f <$> x = .ok b ↔ ∃ a, x = .ok a ∧ f a = b := by
  cases x <;> simp

namespace Json

/-- The trees whose texts say the same as they. -/
inductive IsProper : Json → Prop
  | null : IsProper null
  | bool (value : Bool) : IsProper (bool value)
  | number {p : JsonNumber.Parts} (hp : p.IsProper) : IsProper (number p.text)
  | string (text : String) : IsProper (string (some text))
  | array {items : List Json} (h : ∀ item ∈ items, IsProper item) : IsProper (array items)
  | object {members : List (String × Json)} (h : ∀ member ∈ members, IsProper member.2) :
    IsProper (ofMembers members)

/-- A part of a text is read as `a`, and nothing is broken before `rest`. -/
def Ends {α : Type} {text : List Char} (read : α × Option (Rest text)) (a : α)
    (rest : List Char) : Prop :=
  ∃ h, read = (a, some ⟨rest, h⟩)

theorem ends_of_eq {α : Type} {text r rest : List Char} {a : α} {h : r.length < text.length}
    (hr : r = rest) : Ends ((a, some ⟨r, h⟩) : α × Option (Rest text)) a rest := by
  subst hr
  exact ⟨h, rfl⟩

theorem next?_cons {c : Char} (hc : isSpace c = false) (text : List Char) :
    next? (c :: text) = some (c, ⟨text, Nat.lt_succ_self _⟩) := by
  rw [next?, if_neg (Bool.eq_false_iff.1 hc)]

/-! ### Strings, words and numbers -/

theorem ends_string (text : String) (rest : List Char) :
    Ends (readValue (writeString text ++ rest)) (string (some text)) rest := by
  change Ends (readValue ('"' :: (text.toList.flatMap escapeChar ++ ['"'] ++ rest))) _ rest
  rw [readValue, next?_cons rfl]
  simp only [readString_writeString, if_true]
  exact ends_of_eq List.drop_left

theorem ends_word (word : String) {value : Json} (hword : (word, value) ∈ words)
    (rest : List Char) : Ends (readValue (word.toList ++ rest)) value rest := by
  simp only [words, List.mem_cons, Prod.mk.injEq, List.not_mem_nil, or_false] at hword
  rcases hword with ⟨rfl, rfl⟩ | ⟨rfl, rfl⟩ | ⟨rfl, rfl⟩
  · change Ends (readValue ('t' :: 'r' :: 'u' :: 'e' :: rest)) _ rest
    rw [readValue, next?_cons rfl]
    exact ends_of_eq rfl
  · change Ends (readValue ('f' :: 'a' :: 'l' :: 's' :: 'e' :: rest)) _ rest
    rw [readValue, next?_cons rfl]
    exact ends_of_eq rfl
  · change Ends (readValue ('n' :: 'u' :: 'l' :: 'l' :: rest)) _ rest
    rw [readValue, next?_cons rfl]
    exact ends_of_eq rfl

theorem readWord?_eq_none {c : Char} (ht : c ≠ 't') (hf : c ≠ 'f') (hn : c ≠ 'n')
    (rest : List Char) : readWord? c rest = none := by
  rw [readWord?, Option.map_eq_none_iff, List.find?_eq_none]
  simp [words, ht.symm, hf.symm, hn.symm]

/-- Nothing else begins with a minus or a digit. -/
theorem ne_of_numberStart {c d : Char} (hc : c = '-' ∨ c.isDigit) (hminus : d ≠ '-')
    (hdigit : d.isDigit = false) : c ≠ d := by
  rintro rfl
  exact hc.elim hminus fun h => by rw [h] at hdigit; cases hdigit

theorem isSpace_of_numberStart {c : Char} (hc : c = '-' ∨ c.isDigit) : isSpace c = false := by
  have hne : ∀ d : Char, d ≠ '-' → d.isDigit = false → c ≠ d := fun _ => ne_of_numberStart hc
  simp [isSpace, hne ' ', hne '\t', hne '\n', hne '\r']

theorem ends_number {p : JsonNumber.Parts} (hp : p.IsProper) {rest : List Char}
    (hrest : Stops isNumeralChar rest) :
    Ends (readValue (p.text ++ rest)) (number p.text) rest := by
  have hliteral := JsonNumber.Parts.readLiteral_text hp hrest
  obtain ⟨c, more, hcons, hc⟩ := JsonNumber.Parts.exists_text_eq_cons hp
  have hne : ∀ d : Char, d ≠ '-' → d.isDigit = false → c ≠ d := fun _ => ne_of_numberStart hc
  have hword := readWord?_eq_none (hne 't' (by decide) rfl) (hne 'f' (by decide) rfl)
    (hne 'n' (by decide) rfl) (more ++ rest)
  rw [hcons, List.cons_append] at hliteral ⊢
  rw [readValue, next?_cons (isSpace_of_numberStart hc)]
  simp only [if_neg (hne '"' (by decide) rfl), if_neg (hne '[' (by decide) rfl),
    if_neg (hne '\x7b' (by decide) rfl), hword, hliteral]
  exact ends_of_eq List.drop_left

/-! ### Arrays and objects -/

/-- A tree is read where its text stands, unless a number goes on after it. -/
def ReadsBack (json : Json) : Prop :=
  ∀ rest, Stops isNumeralChar rest → Ends (readValue (json.write ++ rest)) json rest

theorem ends_items {items : List Json} (hne : items ≠ []) (h : ∀ item ∈ items, ReadsBack item)
    (rest : List Char) : Ends (readItems (writeItems items ++ ']' :: rest)) items rest := by
  induction items with
  | nil => exact absurd rfl hne
  | cons item items ih =>
    obtain ⟨hitem, hitems⟩ := List.forall_mem_cons.1 h
    cases items with
    | nil =>
      obtain ⟨hlt, hread⟩ := hitem (']' :: rest) (stops_cons.2 rfl)
      rw [writeItems, readItems]
      simp only [hread, next?_cons (rfl : isSpace ']' = false)]
      exact ends_of_eq rfl
    | cons next items =>
      obtain ⟨hlt, hread⟩ := hitem (',' :: (writeItems (next :: items) ++ ']' :: rest))
        (stops_cons.2 rfl)
      obtain ⟨hltmore, hmore⟩ := ih (List.cons_ne_nil _ _) hitems
      rw [writeItems, List.append_assoc, List.cons_append, readItems]
      · simp only [hread, next?_cons (rfl : isSpace ',' = false), hmore]
        exact ends_of_eq rfl
      · exact fun h => List.cons_ne_nil _ _ h

/-- A member with a name. -/
def keyed (member : String × Json) : Option String × Json := (some member.1, member.2)

theorem ofMembers_eq (members : List (String × Json)) :
    ofMembers members = object (members.map keyed) := rfl

theorem exists_next?_drop {c : Char} (hc : isSpace c = false) (before rest : List Char) :
    ∃ h, next? ((before ++ c :: rest).drop before.length) = some (c, ⟨rest, h⟩) := by
  rw [List.drop_left]
  exact ⟨_, next?_cons hc rest⟩

theorem ends_members {members : List (String × Json)} (hne : members ≠ [])
    (h : ∀ member ∈ members, ReadsBack member.2) (rest : List Char) :
    Ends (readMembers (writeMembers (members.map keyed) ++ '\x7d' :: rest))
      (members.map keyed) rest := by
  induction members with
  | nil => exact absurd rfl hne
  | cons member members ih =>
    obtain ⟨key, value⟩ := member
    obtain ⟨hvalue, hvalues⟩ := List.forall_mem_cons.1 h
    -- The key goes up to its closing quote, and a colon stands after it.
    have hcolon := exists_next?_drop (rfl : isSpace ':' = false)
      (key.toList.flatMap escapeChar ++ ['"'])
    cases members with
    | nil =>
      obtain ⟨hlt, hread⟩ := hvalue ('\x7d' :: rest) (stops_cons.2 rfl)
      obtain ⟨hnextlt, hnext⟩ := hcolon (value.write ++ '\x7d' :: rest)
      have htext : writeMembers ([(key, value)].map keyed) ++ '\x7d' :: rest =
          '"' :: (key.toList.flatMap escapeChar ++ ['"'] ++
            ':' :: (value.write ++ '\x7d' :: rest)) := by
        simp [keyed, writeMembers, writeString]
      rw [htext, readMembers, next?_cons rfl]
      simp only [readString_writeString, hnext, hread, next?_cons (rfl : isSpace '\x7d' = false)]
      exact ends_of_eq rfl
    | cons next members =>
      let more := writeMembers ((next :: members).map keyed) ++ '\x7d' :: rest
      obtain ⟨hlt, hread⟩ := hvalue (',' :: more) (stops_cons.2 rfl)
      obtain ⟨hnextlt, hnext⟩ := hcolon (value.write ++ ',' :: more)
      obtain ⟨hltmore, hmore⟩ := ih (List.cons_ne_nil _ _) hvalues
      have htext : writeMembers (((key, value) :: next :: members).map keyed) ++ '\x7d' :: rest =
          '"' :: (key.toList.flatMap escapeChar ++ ['"'] ++
            ':' :: (value.write ++ ',' :: more)) := by
        simp [keyed, writeMembers, writeString, more]
      rw [htext, readMembers, next?_cons rfl]
      simp only [readString_writeString, hnext, hread, next?_cons (rfl : isSpace ',' = false)]
      simp only [more, hmore]
      exact ends_of_eq rfl

/-- The text of a proper tree begins with a character that is neither a blank nor the end of an
    array. -/
theorem IsProper.exists_write_eq_cons {json : Json} (h : json.IsProper) :
    ∃ c rest, json.write = c :: rest ∧ isSpace c = false ∧ c ≠ ']' := by
  cases h with
  | null => exact ⟨'n', _, rfl, rfl, by decide⟩
  | bool value => cases value <;> exact ⟨_, _, rfl, rfl, by decide⟩
  | @number p hp =>
    obtain ⟨c, more, hcons, hc⟩ := JsonNumber.Parts.exists_text_eq_cons hp
    exact ⟨c, more, by rw [write, hcons], isSpace_of_numberStart hc,
      ne_of_numberStart hc (by decide) rfl⟩
  | string text => exact ⟨'"', _, rfl, rfl, by decide⟩
  | array => exact ⟨'[', _, rfl, rfl, by decide⟩
  | object => exact ⟨'\x7b', _, rfl, rfl, by decide⟩

/-- Items do not begin with the end of an array. -/
theorem exists_next?_writeItems {item : Json} (h : item.IsProper) (items : List Json)
    (rest : List Char) :
    ∃ c r, next? (writeItems (item :: items) ++ rest) = some (c, r) ∧ c ≠ ']' := by
  obtain ⟨c, more, hcons, hspace, hne⟩ := h.exists_write_eq_cons
  obtain ⟨more', hitems⟩ : ∃ more', writeItems (item :: items) ++ rest = c :: more' := by
    cases items <;> simp [writeItems, hcons]
  rw [hitems]
  exact ⟨c, _, next?_cons hspace more', hne⟩

theorem readsBack_array {items : List Json} (hproper : ∀ item ∈ items, IsProper item)
    (h : ∀ item ∈ items, ReadsBack item) : ReadsBack (array items) := by
  intro rest _
  cases items with
  | nil =>
    change Ends (readValue ('[' :: ']' :: rest)) _ rest
    rw [readValue, next?_cons rfl]
    exact ends_of_eq rfl
  | cons item items =>
    obtain ⟨hlt, hread⟩ := ends_items (List.cons_ne_nil item items) h rest
    obtain ⟨c, r, hnext, hne⟩ :=
      exists_next?_writeItems (hproper item List.mem_cons_self) items (']' :: rest)
    have htext : (array (item :: items)).write ++ rest =
        '[' :: (writeItems (item :: items) ++ ']' :: rest) := by
      simp [write]
    rw [htext, readValue, next?_cons rfl]
    simp only [hread, hnext, if_neg (by decide : '[' ≠ '"'), if_true]
    split
    case h_1 heq => exact absurd (congrArg Prod.fst (Option.some.inj heq)) hne
    case h_2 => exact ends_of_eq rfl

theorem readsBack_object {members : List (String × Json)}
    (h : ∀ member ∈ members, ReadsBack member.2) : ReadsBack (ofMembers members) := by
  intro rest _
  cases members with
  | nil =>
    change Ends (readValue ('\x7b' :: '\x7d' :: rest)) _ rest
    rw [readValue, next?_cons rfl]
    exact ends_of_eq rfl
  | cons member members =>
    obtain ⟨hlt, hread⟩ := ends_members (List.cons_ne_nil member members) h rest
    have htext : (ofMembers (member :: members)).write ++ rest =
        '\x7b' :: (writeMembers ((member :: members).map keyed) ++ '\x7d' :: rest) := by
      simp [ofMembers_eq, write]
    obtain ⟨more, hmore⟩ : ∃ more, writeMembers ((member :: members).map keyed) ++ '\x7d' :: rest =
        '"' :: more := by
      cases members <;> simp [keyed, writeMembers, writeString]
    have hnext : ∃ r, next? (writeMembers ((member :: members).map keyed) ++ '\x7d' :: rest) =
        some ('"', r) := by
      rw [hmore]
      exact ⟨_, next?_cons rfl more⟩
    obtain ⟨r, hnext⟩ := hnext
    rw [htext, readValue, next?_cons rfl]
    simp only [hread, hnext, if_neg (by decide : '\x7b' ≠ '"'), if_neg (by decide : '\x7b' ≠ '['),
      if_true]
    exact ends_of_eq rfl

/-- A proper tree is read where its text stands. -/
theorem IsProper.readsBack {json : Json} (h : json.IsProper) : ReadsBack json := by
  induction h with
  | null => exact fun rest _ => ends_word "null" (by simp [words]) rest
  | bool value =>
    cases value with
    | true => exact fun rest _ => ends_word "true" (by simp [words]) rest
    | false => exact fun rest _ => ends_word "false" (by simp [words]) rest
  | number hp => exact fun rest hrest => by rw [write]; exact ends_number hp hrest
  | string text => exact fun rest _ => by rw [write]; exact ends_string text rest
  | array h ih => exact readsBack_array h ih
  | object h ih => exact readsBack_object ih

/-- A proper tree is the tree of its text. -/
theorem IsProper.ofText_encode {json : Json} (h : json.IsProper) :
    ofText (encode json) = (json, true) := by
  have hends : Ends (readValue (encode json).toList) json [] := by
    have hback := h.readsBack [] stops_nil
    rwa [List.append_nil, ← String.toList_ofList (l := json.write)] at hback
  obtain ⟨hlt, hread⟩ := hends
  rw [ofText, hread]
  rfl

/-- What is read from the text of a proper tree is read from the tree. -/
theorem IsProper.decode_encode {json : Json} (h : json.IsProper) {α : Type} (read : Decoder α) :
    decode read (encode json) = read json := by
  rw [decode, h.ofText_encode]
  simp

/-- What is read from a text is read from some tree. -/
theorem exists_of_decode {α : Type} {read : Decoder α} {text : String} {a : α}
    (h : decode read text = .ok a) : ∃ json, read json = .ok a := by
  obtain ⟨b, hread, h⟩ := bind_eq_ok.1 h
  replace h : (if (ofText text).2 then .ok b else .error malformed) = Except.ok a := h
  split at h
  · obtain rfl := Except.ok.inj h
    exact ⟨_, hread⟩
  · cases h

end Json

end QuantityQuery
