import QuantityQuery.Parser.Detector

/-!
# The registry of parsers

Parsers under their names. A name is given once and keeps its parser. A parser is
anything with a name that parses requests, be it the lexical parser, a detector or a
parser of the host.

* `HostParser`: a parser as the registry sees it;
* `Registry.register`: one parser more, if its name is free;
* `Registry.parse`: a request parsed by the parser with a name.
-/

namespace QuantityQuery

/-- A parser that requests can name. -/
structure HostParser where
  name : String
  /-- The tree that an input writes, in the context of a request, with a report. -/
  parse : Request → String → Reported (Except Error Node)
  /-- The tree of a request, with a report. -/
  parseRequest : Request → Reported (Except Error Node) := fun r => parse r r.query

namespace HostParser

/-- The parser of the query language. -/
def lexical (p : LexicalParser) : HostParser where
  name := LexicalParser.name
  parse r input := .silent ((p.parse r input).mapError .query)

/-- A parser for the quantities in a text. -/
def detector (d : Detector) : HostParser where
  name := d.name
  parse r input := do
    let parsed ← d.parseReported r input
    return parsed.mapError .query

end HostParser

/-- Parsers under their names. -/
structure Registry where
  parsers : Table HostParser

namespace Registry

/-- The registry without parsers. -/
def empty : Registry := ⟨.empty⟩

/-- The registry that has the parser of the query language. -/
def withLexical : Registry := ⟨Table.empty.insert LexicalParser.name (.lexical {})⟩

variable (reg : Registry)

/-- The names of the parsers, in ascending order. -/
def names : List String := reg.parsers.names

/-- The parser with a name. -/
def get (name : String) : Except Error HostParser :=
  match reg.parsers.get? name with
  | some p => .ok p
  | none => .error (.unknownParser name)

/-- Registers a parser, whose name must be free: what comes of it, and the registry afterwards. -/
def register (p : HostParser) : Except Error Unit × Registry :=
  match reg.parsers.get? p.name with
  | some _ => (.error (.config (.parserTaken p.name)), reg)
  | none => (.ok (), ⟨reg.parsers.insert p.name p⟩)

/-- Registers a parser, with a report. -/
def registerReported (p : HostParser) : Reported (Except Error Unit × Registry) :=
  let (registered, reg) := reg.register p
  match registered with
  | .error e => ⟨(.error e, reg), []⟩
  | .ok () => ⟨(.ok (), reg), [.parserRegistered p.name]⟩

/-- A request parsed by the parser with a name, with a report. -/
def parseReported (name : String) (r : Request) : Reported (Except Error Node) :=
  match reg.get name with
  | .error e => .silent (.error e)
  | .ok p => p.parseRequest r

/-- A request parsed by the parser with a name. -/
def parse (name : String) (r : Request) : Except Error Node := (reg.parseReported name r).value

end Registry

end QuantityQuery
