/-!
# Events

What the library reports about its work, as values. A `Reported` value carries
the events that arose on the way to it, first one first.
-/

namespace QuantityQuery

/-- How much an event matters. -/
inductive Level
  | trace
  | debug
  | info
  | warn
  deriving DecidableEq, Repr

/-- The name of a level. -/
def Level.name : Level → String
  | trace => "TRACE"
  | debug => "DEBUG"
  | info => "INFO"
  | warn => "WARN"

/-- Something that happened. -/
inductive Event
  /-- A spelling that an earlier unit has too, so that it never stands for the later one. -/
  | variantShadowed (variant field unit firstField firstUnit : String)
  | catalogueLoaded (fields units variants : Nat)
  | detectorReady (name kind : String) (fields : Nat) (host : String)
  | parserRegistered (name : String)
  | quantityDetected (amount : Nat) (unit field : String)
  | expressionSynthesized (count : Nat) (query expression : String)
  | expressionRejected (host expression reason : String)
  /-- A name that is no clause style. -/
  | kindUnknown (kind : String)
  deriving DecidableEq

namespace Event

/-- How much the event matters. -/
def level : Event → Level
  | variantShadowed .. | kindUnknown .. => .warn
  | catalogueLoaded .. | detectorReady .. | parserRegistered .. => .info
  | quantityDetected .. => .trace
  | expressionSynthesized .. | expressionRejected .. => .debug

/-- The wording of an event. -/
def message : Event → String
  | variantShadowed variant field unit firstField firstUnit =>
    s!"Variant '{variant}' of {field}/{unit} shadowed by {firstField}/{firstUnit}"
  | catalogueLoaded fields units variants =>
    s!"Quantity catalogue loaded: {fields} fields, {units} units, {variants} variants"
  | detectorReady name kind fields host =>
    s!"Quantity detector '{name}' ready: {kind} builder, {fields} fields, host parser '{host}'"
  | parserRegistered name => s!"Registered query parser '{name}'"
  | quantityDetected amount unit field => s!"Detected {amount} {unit} for field {field}"
  | expressionSynthesized count query expression =>
    s!"Detected {count} quantities in '{query}', synthesized '{expression}'"
  | expressionRejected host expression reason =>
    s!"Parser '{host}' rejected synthesized expression '{expression}': {reason}"
  | kindUnknown kind => s!"Unknown builder kind '{kind}', using 'boost'"

/-- The event as a line of a log. -/
def line (e : Event) : String := e.level.name ++ " " ++ e.message

end Event

/-- A value and the events on the way to it. -/
structure Reported (α : Type) where
  value : α
  events : List Event

namespace Reported

variable {α β : Type}

/-- A value that nothing is reported about. -/
def silent (value : α) : Reported α := ⟨value, []⟩

/-- The next step, with its events after those before it. -/
def andThen (r : Reported α) (next : α → Reported β) : Reported β :=
  ⟨(next r.value).value, r.events ++ (next r.value).events⟩

instance : Monad Reported where
  pure := silent
  bind := andThen

end Reported

end QuantityQuery
