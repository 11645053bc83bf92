import QuantityQuery.CommandLine.Arguments
import QuantityQuery.Config.SetUp
import QuantityQuery.Search.Json

/-!
# Runs of the program

A run finds the quantities in a query, shows the expression for them and the tree
that the expression parses to, and can search documents with it. Its *outcome* is
what it prints and its exit code. Files are read by a given function, in any monad.

* `showQuantities`: the lines about the quantities in a text;
* `showHits`: the lines about the documents that a query finds;
* `run`: the outcome for the words of a command line.
-/

namespace QuantityQuery.CommandLine

/-- What a run of the program comes to. -/
structure Outcome where
  /-- The exit code. -/
  code : Nat
  /-- The lines of the output. -/
  lines : List String := []
  /-- What is wrong or may be wrong. -/
  complaints : List String := []
  deriving DecidableEq

/-- How the program is used. -/
def usage : List String :=
  ["Detect quantities in a query and show the synthesized boost query",
    "",
    "Usage: qty [OPTIONS] <--config <CONFIG>|--catalogue <CATALOGUE>> <QUERY>...",
    "",
    "Arguments:",
    "  <QUERY>...  Query text, e.g. 42 inch tv",
    "",
    "Options:",
    "      --config <CONFIG>                Plugin configuration file [env: QTY_CONFIG]",
    "      --catalogue <CATALOGUE>          Catalogue file [env: QTY_CATALOGUE]",
    "      --kind <KIND>                    Builder kind (boost, filter) [env: QTY_KIND]",
    "      --name <NAME>                    Name to register the parser under",
    "      --default-field <DEFAULT_FIELD>  Default field for unqualified terms",
    "      --docs <DOCS>                    JSON documents to run the parsed query against",
    "      --top-k <TOP_K>                  Number of hits to print",
    "  -h, --help                           Print help"]

/-- The outcome of a command line that does not lead to a run. -/
def Stop.outcome : Stop → Outcome
  | .help => { code := 0, lines := usage }
  | stop => { code := 2, complaints := ["error: " ++ stop.message] }

/-! ## The steps of a run -/

/-- The clause style with a name, in any case. Another name is reported and stands for `boost`. -/
def readKind (kind : String) : Reported ClauseStyle :=
  if isWord "BOOST" kind.toList then .silent .boost
  else if isWord "FILTER" kind.toList then .silent .filter
  else ⟨.boost, [.kindUnknown kind]⟩

/-- The configuration of the detector for a catalogue in a file. -/
def Arguments.config (a : Arguments) (file : String) : Reported Config := do
  let style ← readKind a.kind
  let standard : Settings := {}
  return {
    name := a.name
    style
    catalogue := .file file
    settings := { standard with defaultField := a.defaultField?.getD standard.defaultField } }

/-- The request for the query of a command line. -/
def Arguments.request (a : Arguments) : Request :=
  ⟨a.query, .ofList (a.defaultField?.toList.map fun field => ("df", field))⟩

/-- The line about a quantity. -/
def showOccurrence (o : Occurrence) : String :=
  "detected: " ++ toString o.amount ++ " " ++ o.unit.name ++ " -> " ++ o.field

/-- The lines about the quantities of a text and the expression for them. -/
def showQuantities (d : Detector) (text : String) : List String :=
  (d.detect text).map showOccurrence ++ ["expression: " ++ d.synthesize text]

/-- The line about a found document. -/
def showHit (h : Hit) : String := "  " ++ toString h.id ++ "\t" ++ h.score.writePlaces 3

/-! ## Runs -/

/-- Why a run ends early. -/
inductive Failure
  | error (e : Error)
  /-- There is no room for as many documents as are asked for. -/
  | noRoom

namespace Failure

/-- The exit code. -/
def code : Failure → Nat
  | error _ => 1
  | noRoom => 101

/-- What is wrong. -/
def complaint : Failure → String
  | error e => "Error: " ++ e.message
  | noRoom => "capacity overflow"

end Failure

/-- A run in the making: what is printed up to its end or to the first failure, which ends it. -/
abbrev Printed (α : Type) := List String × Except Failure α

/-- The outcome of a run, after some warnings. -/
def Printed.outcome (warnings : List Event) : Printed Unit → Outcome
  | (lines, .ok ()) =>
    { code := 0, lines, complaints := warnings.map Event.line }
  | (lines, .error failure) =>
    { code := failure.code, lines, complaints := warnings.map Event.line ++ [failure.complaint] }

/-- The lines about the documents that a query finds. -/
def showHits (ix : Index) (q : Node) (topK : Nat) : Printed Unit :=
  match (q.search ix topK .empty).1 with
  | none => ([], .error .noRoom)
  | some results => ((toString results.total ++ " hits") :: results.hits.map showHit, .ok ())

section Files

variable {m : Type → Type} [Monad m] (readFile : String → m (Except String String))

/-- The configuration that the arguments lead to. -/
def Arguments.loadConfig (a : Arguments) : m (Reported (Except Error Config)) := do
  match a.source with
  | .config file => return .silent (← Config.ofFile readFile file)
  | .catalogue file => return .ok <$> a.config file

/-- The documents of a file. -/
def loadIndex (file : String) : m (Except Error Index) := do
  match ← readFile file with
  | .error reason => return .error (.file reason)
  | .ok text => return (Index.ofText text).mapError .data

/-- The lines about the documents that a query finds in the file of the arguments. -/
def Arguments.searchDocs (a : Arguments) (q : Node) : m (Printed Unit) := do
  match a.docs? with
  | none => return ([], .ok ())
  | some file =>
    match ← loadIndex readFile file with
    | .error e => return ([], .error (.error e))
    | .ok ix => return showHits ix q a.topK

/-- What is printed about the query of the arguments. -/
def Arguments.showQuery (a : Arguments) (d : Detector) (reg : Registry) : m (Printed Unit) := do
  let found := showQuantities d a.query
  match reg.parse d.name a.request with
  | .error e => return (found, .error (.error e))
  | .ok q =>
    let (hits, ending) ← a.searchDocs readFile q
    return (found ++ ["parsed: " ++ q.describe] ++ hits, ending)

/-- The outcome for the arguments of a command line. -/
def Arguments.run (a : Arguments) : m Outcome := do
  let ⟨config, kindEvents⟩ ← a.loadConfig readFile
  match config with
  | .error e => return Printed.outcome kindEvents ([], .error (.error e))
  | .ok config =>
    let ⟨(registered, reg), events⟩ ← Registry.withLexical.registerConfig readFile config
    let warnings := kindEvents ++ events.filter (·.level = .warn)
    match registered with
    | .error e => return Printed.outcome warnings ([], .error (.error e))
    | .ok d => return Printed.outcome warnings (← a.showQuery readFile d reg)

/-- The outcome for the words of a command line. -/
def run (env : Environment) (words : List String) : m Outcome :=
  match Arguments.ofWords env words with
  | .error stop => return stop.outcome
  | .ok a => a.run readFile

end Files

end QuantityQuery.CommandLine
