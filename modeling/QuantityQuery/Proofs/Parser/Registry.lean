import Mathlib.Data.List.Basic
import Mathlib.Data.List.Induction
import QuantityQuery.Config.SetUp
import QuantityQuery.Proofs.Table

/-!
# Histories of a registry

What a history of registrations makes of a registry, whatever registry it starts from. A
call registers its parser if it can be set up (`Registration.apply_eq`) and its name is free,
and else changes nothing (`Registry.register_cases`). So a name is given once: it keeps the
parser that it had at first, or the one that a call has registered under it
(`Registry.get?_run_iff`).

* `Registry.run`: the registry after some calls;
* `Registry.Registers`: one of these calls has registered a parser.
-/

namespace QuantityQuery

/-- A call that is to register a parser. -/
inductive Registration
  | parser (p : HostParser)
  /-- A detector is set up from a configuration, with the files that there are at the time. -/
  | config (readFile : String → Except String String) (c : Config)

namespace Registration

/-- The parser that a call is to register, if it can be set up. -/
def parser? : Registration → Except Error HostParser
  | parser p => .ok p
  | config readFile c => (Config.setUp (m := Id) readFile c).value.map .detector

/-- What comes of a call, and the registry afterwards. -/
def apply (reg : Registry) : Registration → Except Error Unit × Registry
  | parser p => (reg.registerReported p).value
  | config readFile c =>
    let (registered, reg) := (Registry.registerConfig (m := Id) readFile reg c).value
    (registered.map fun _ => (), reg)

theorem value_registerReported (reg : Registry) (p : HostParser) :
    (reg.registerReported p).value = reg.register p := by
  rw [Registry.registerReported]
  rcases reg.register p with ⟨_ | _, _⟩ <;> rfl

/-- A call sets its parser up and then registers it. -/
theorem apply_eq (reg : Registry) (call : Registration) : call.apply reg =
    match call.parser? with
    | .error e => (.error e, reg)
    | .ok p => reg.register p := by
  cases call with
  | parser p => exact value_registerReported reg p
  | config readFile c =>
    rw [apply, parser?, Registry.registerConfig]
    rcases hsetUp : Config.setUp (m := Id) readFile c with ⟨e | d, events⟩
    · rfl
    · simp only [bind, value_registerReported, Except.map]
      rcases reg.register (.detector d) with ⟨_ | _, _⟩ <;> rfl

end Registration

namespace Registry

/-- The registry after a call. -/
def after (reg : Registry) (call : Registration) : Registry := (call.apply reg).2

/-- The registry after some calls, one after the other. -/
def run (reg : Registry) (calls : List Registration) : Registry := calls.foldl after reg

/-- One of the calls has registered the parser. -/
def Registers (reg : Registry) (calls : List Registration) (p : HostParser) : Prop :=
  ∃ earlier call later, calls = earlier ++ call :: later ∧ call.parser? = .ok p ∧
    (call.apply (reg.run earlier)).1 = .ok ()

variable {reg : Registry} {calls : List Registration} {call : Registration} {p : HostParser}
  {name : String} {e : Error}

theorem run_concat : reg.run (calls ++ [call]) = (reg.run calls).after call :=
  List.foldl_concat ..

theorem registers_concat : reg.Registers (calls ++ [call]) p ↔ reg.Registers calls p ∨
    call.parser? = .ok p ∧ (call.apply (reg.run calls)).1 = .ok () := by
  constructor
  · rintro ⟨earlier, c, later, hcalls, hp, hok⟩
    rcases List.eq_nil_or_concat later with rfl | ⟨more, last, rfl⟩
    · obtain ⟨rfl, hc⟩ := List.append_inj' hcalls rfl
      obtain rfl := List.singleton_inj.1 hc
      exact .inr ⟨hp, hok⟩
    · rw [List.concat_eq_append, ← List.cons_append, ← List.append_assoc] at hcalls
      exact .inl ⟨earlier, c, more, (List.append_inj' hcalls rfl).1, hp, hok⟩
  · rintro (⟨earlier, c, later, rfl, hp, hok⟩ | ⟨hp, hok⟩)
    · exact ⟨earlier, c, later ++ [call], by simp, hp, hok⟩
    · exact ⟨calls, call, [], rfl, hp, hok⟩

/-! ### One call -/

/-- A parser whose name is free is added to the others, and one whose name is taken is refused and
    changes nothing. -/
theorem register_cases (reg : Registry) (p : HostParser) :
    reg.parsers.get? p.name = none ∧
        reg.register p = (.ok (), ⟨reg.parsers.insert p.name p⟩) ∨
      p.name ∈ reg.names ∧ reg.register p = (.error (.config (.parserTaken p.name)), reg) := by
  rw [register, names, Table.mem_names_iff]
  cases reg.parsers.get? p.name with
  | none => exact .inl ⟨rfl, rfl⟩
  | some _ => exact .inr ⟨rfl, rfl⟩

theorem register_eq_error_iff : (reg.register p).1 = .error e ↔
    p.name ∈ reg.names ∧ e = .config (.parserTaken p.name) := by
  rcases register_cases reg p with ⟨hfree, h⟩ | ⟨htaken, h⟩
  · simp [h, names, Table.mem_names_iff, hfree]
  · simp [h, htaken, eq_comm]

/-- A call fails if its parser cannot be set up, or has a name that is taken. -/
theorem apply_eq_error_iff : (call.apply reg).1 = .error e ↔ call.parser? = .error e ∨
    ∃ p, call.parser? = .ok p ∧ p.name ∈ reg.names ∧ e = .config (.parserTaken p.name) := by
  rw [Registration.apply_eq]
  cases call.parser? with
  | error e' => simp
  | ok p => simp [register_eq_error_iff]

/-- A call that fails leaves the registry as it is. -/
theorem after_eq_of_error (h : (call.apply reg).1 = .error e) : reg.after call = reg := by
  rw [after]
  rw [Registration.apply_eq] at h ⊢
  cases hp : call.parser? with
  | error e' => rfl
  | ok p =>
    simp only [hp] at h ⊢
    rcases register_cases reg p with ⟨-, hadded⟩ | ⟨-, hrefused⟩
    · rw [hadded] at h
      cases h
    · rw [hrefused]

/-- The parsers after a call are those before it and the one that it has registered. -/
theorem get?_after_iff : (reg.after call).parsers.get? name = some p ↔
    reg.parsers.get? name = some p ∨
      call.parser? = .ok p ∧ p.name = name ∧ (call.apply reg).1 = .ok () := by
  rw [after, Registration.apply_eq]
  cases call.parser? with
  | error e => simp
  | ok new =>
    rcases register_cases reg new with ⟨hfree, hadded⟩ | ⟨-, hrefused⟩
    · simp only [hadded, Table.get?_insert]
      split
      case isTrue hname =>
        subst hname
        constructor
        · rintro ⟨⟩
          exact .inr ⟨rfl, rfl, trivial⟩
        · -- The name was free before.
          rintro (h | ⟨⟨⟩, -⟩)
          · rw [hfree] at h
            cases h
          · rfl
      case isFalse hname =>
        constructor
        · exact .inl
        · rintro (h | ⟨⟨⟩, hsame, -⟩)
          · exact h
          · exact absurd hsame.symm hname
    · simp [hrefused]

/-! ### Histories -/

/-- A name stands for the parser that it stood for at first, or for the one that was registered
    under it. -/
theorem get?_run_iff : (reg.run calls).parsers.get? name = some p ↔
    reg.parsers.get? name = some p ∨ reg.Registers calls p ∧ p.name = name := by
  induction calls using List.reverseRecOn with
  | nil => simp [run, Registers]
  | append_singleton calls call ih =>
    rw [run_concat, get?_after_iff, ih, registers_concat, or_and_right, or_assoc]
    refine or_congr_right (or_congr_right ?_)
    tauto

theorem get_eq_ok_iff : reg.get name = .ok p ↔ reg.parsers.get? name = some p := by
  rw [get]
  cases reg.parsers.get? name <;> simp

theorem get_eq_error (h : name ∉ reg.names) : reg.get name = .error (.unknownParser name) := by
  rw [names, Table.mem_names_iff, Option.not_isSome_iff_eq_none] at h
  rw [get, h]

theorem mem_names_iff : name ∈ reg.names ↔ ∃ p, reg.get name = .ok p := by
  simp only [names, Table.mem_names_iff, Option.isSome_iff_exists, get_eq_ok_iff]

/-- Whatever calls a history is made of, a name is known if it was known at first or one of the
    calls has registered a parser under it, and it stands for this parser from then on. A name
    that is not known is refused. One more call fails exactly if its parser cannot be set up or
    has a known name, and then leaves the registry as it is. -/
theorem run_history (reg : Registry) (calls : List Registration) :
    let final := reg.run calls
    final.names.Pairwise (· < ·) ∧
    (∀ name,
      (name ∈ final.names ↔ name ∈ reg.names ∨ ∃ p, reg.Registers calls p ∧ p.name = name) ∧
      (∀ p, reg.get name = .ok p ∨ reg.Registers calls p ∧ p.name = name →
        final.get name = .ok p ∧ ∀ r, final.parse name r = (p.parseRequest r).value) ∧
      (name ∉ final.names → final.get name = .error (.unknownParser name) ∧
        ∀ r, final.parse name r = .error (.unknownParser name))) ∧
    ∀ call : Registration,
      (∀ e, (call.apply final).1 = .error e ↔ call.parser? = .error e ∨
        ∃ p, call.parser? = .ok p ∧ p.name ∈ final.names ∧ e = .config (.parserTaken p.name)) ∧
      ∀ e, (call.apply final).1 = .error e → (call.apply final).2 = final := by
  intro final
  have hget : ∀ name p, final.get name = .ok p ↔
      reg.get name = .ok p ∨ reg.Registers calls p ∧ p.name = name := by
    intro name p
    rw [get_eq_ok_iff, get_eq_ok_iff]
    exact get?_run_iff
  refine ⟨Table.pairwise_names _, fun name => ⟨?_, fun p hp => ?_, fun hname => ?_⟩,
    fun call => ⟨fun e => apply_eq_error_iff, fun e => after_eq_of_error⟩⟩
  · simp only [mem_names_iff, hget, exists_or]
  · have hfinal := (hget name p).2 hp
    exact ⟨hfinal, fun r => by rw [parse, parseReported, hfinal]⟩
  · have hfinal := get_eq_error hname
    exact ⟨hfinal, fun r => by rw [parse, parseReported, hfinal]; rfl⟩

end Registry

end QuantityQuery
