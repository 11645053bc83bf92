import QuantityQuery.Detection.Expression
import QuantityQuery.Error
import QuantityQuery.Parser.Lexical

/-!
# The quantity detector

A parser that finds the quantities in a text and hands the expression for them to
the lexical parser. What else is in the text does not matter.

* `LexicalParser.parseExpression`: an expression parsed, with a report if it is refused;
* `Detector.parse`: the tree for the quantities in a text;
* `Detector.parseReported`: the same with a report.
-/

namespace QuantityQuery

/-- A parser for the quantities in a text. -/
structure Detector where
  name : String
  style : ClauseStyle
  catalogue : Catalogue
  host : LexicalParser
  deriving DecidableEq

/-- An expression parsed for a request. A refusal is reported. -/
def LexicalParser.parseExpression (p : LexicalParser) (r : Request) (expression : String) :
    Reported (Except QueryError Node) :=
  match p.parse r expression with
  | .ok q => ⟨.ok q, []⟩
  | .error fault =>
    ⟨.error fault, [.expressionRejected LexicalParser.name expression (Error.query fault).message]⟩

namespace Detector

variable (d : Detector)

/-- The report of a detector that is set up. -/
def readyEvent : Event :=
  .detectorReady d.name d.style.name d.catalogue.fields.length LexicalParser.name

/-- A detector, with a report. -/
def setUp (name : String) (style : ClauseStyle) (catalogue : Catalogue) (host : LexicalParser) :
    Reported Detector :=
  let d : Detector := ⟨name, style, catalogue, host⟩
  ⟨d, [d.readyEvent]⟩

/-- The quantities in a text. -/
def detect (text : String) : List Occurrence := d.catalogue.scan text

/-- The expression for the quantities in a text. -/
def synthesize (text : String) : String := d.catalogue.expression d.style (d.detect text)

/-- The tree for the quantities in an input. -/
def parse (r : Request) (input : String) : Except QueryError Node :=
  d.host.parse r (d.synthesize input)

/-- The quantities in a text, with a report. -/
def detectReported (text : String) : Reported (List Occurrence) :=
  let found := d.detect text
  ⟨found, found.map Occurrence.event⟩

/-- The expression for the quantities in a text, with a report. -/
def synthesizeReported (text : String) : Reported String := do
  let found ← d.detectReported text
  return d.catalogue.expression d.style found

/-- The tree for the quantities in an input, with a report. -/
def parseReported (r : Request) (input : String) : Reported (Except QueryError Node) := do
  let found ← d.detectReported input
  let expression := d.catalogue.expression d.style found
  ⟨(), [.expressionSynthesized found.length r.query expression]⟩
  d.host.parseExpression r expression

/-- The name of a clause style in descriptions. -/
def describeStyle : ClauseStyle → String
  | .boost => "Boost"
  | .filter => "Filter"

/-- The detector as one line of text. -/
def describe : String :=
  "QuantityDetector \x7b name: " ++ quote d.name ++ ", kind: " ++ describeStyle d.style ++
    ", fields: " ++ toString d.catalogue.fields.length ++
    ", parser: " ++ quote LexicalParser.name ++ " \x7d"

end Detector

end QuantityQuery
