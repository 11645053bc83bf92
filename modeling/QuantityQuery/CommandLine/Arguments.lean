import QuantityQuery.Number.Numeral

/-!
# Command line arguments

The words of a command line and what they ask for. An option is written
`--name value` or `--name=value` and is given at most once; all other words are
the query, and so are all words after `--`. A word that begins with a hyphen is
neither a value nor part of the query, unless it is the hyphen alone. Three of the
options can also come from the environment.

* `readWords`: the options and the words of the query;
* `Arguments.ofWords`: what is asked for, by the words and the environment.
-/

namespace QuantityQuery.CommandLine

/-- The options. -/
inductive OptionName
  | config
  | catalogue
  | kind
  | name
  | defaultField
  | docs
  | topK
  deriving DecidableEq, Repr

namespace OptionName

/-- The options as they are written, without the hyphens. -/
def table : List (String × OptionName) :=
  [("config", config), ("catalogue", catalogue), ("kind", kind), ("name", name),
    ("default-field", defaultField), ("docs", docs), ("top-k", topK)]

/-- The option as it is written. -/
def written (option : OptionName) : String :=
  match table.find? (·.2 = option) with
  | some (text, _) => "--" ++ text
  | none => ""

/-- The value of the option is a path, which cannot be empty. -/
def isPath : OptionName → Bool
  | config | catalogue | docs => true
  | _ => false

end OptionName

/-- Why a command line does not lead to a run. -/
inductive Stop
  /-- The words ask for help. -/
  | help
  | unknownOption (word : String)
  | repeatedOption (option : OptionName)
  | valueMissing (option : OptionName)
  | notCount (text : String)
  /-- There are two sources for the catalogue. -/
  | conflict
  /-- There is no source for the catalogue. -/
  | catalogueMissing
  | queryMissing
  deriving DecidableEq, Repr

/-- The wording of a refused command line. -/
def Stop.message : Stop → String
  | help => ""
  | unknownOption word => s!"unexpected argument '{word}'"
  | repeatedOption option => s!"{option.written} is given more than once"
  | valueMissing option => s!"{option.written} needs a value"
  | notCount text => s!"'{text}' is no count"
  | conflict => "--config and --catalogue exclude each other"
  | catalogueMissing => "one of --config and --catalogue is needed"
  | queryMissing => "a query is needed"

/-! ## Words -/

/-- The options and the words of the query on a command line. -/
structure Words where
  options : List (OptionName × String) := []
  query : List String := []

/-- The word looks like an option. -/
def isOptionLike (word : String) : Bool := word.toList.head? = some '-' && word ≠ "-"

/-- The largest count. -/
def maxCount : Nat := 0xFFFF_FFFF_FFFF_FFFF

/-- The count that a text writes. A plus sign can stand before the digits. -/
def readCount? (text : String) : Option Nat :=
  match text.toList with
  | '+' :: digits => readNat? maxCount digits
  | digits => readNat? maxCount digits

/-- The option can have this value. -/
def checkValue (option : OptionName) (value : String) : Except Stop Unit :=
  if option.isPath && value = "" then .error (.valueMissing option)
  else if option = .topK && (readCount? value).isNone then .error (.notCount value)
  else .ok ()

/-- One option more, which was not given before. -/
def Words.add (before : Words) (option : OptionName) (value : String) : Except Stop Words := do
  if (before.options.lookup option).isSome then throw (.repeatedOption option)
  checkValue option value
  return { before with options := before.options ++ [(option, value)] }

/-- The option in a word, and its value where the word has one. -/
def readOption (word : String) : Except Stop (OptionName × Option String) :=
  match word.toList with
  | '-' :: '-' :: text =>
    let name := String.ofList (text.takeWhile (· ≠ '='))
    let value := (text.dropWhile (· ≠ '=')).tail?.map String.ofList
    match OptionName.table.lookup name with
    | some option => .ok (option, value)
    | none => .error (if name = "help" ∧ value = none then .help else .unknownOption word)
  | '-' :: 'h' :: _ => .error .help
  | _ => .error (.unknownOption word)

/-- The words of a command line, after the words `before` of which the last one can be an option
    that waits for its value. -/
def readWords (before : Words) (waiting : Option OptionName) :
    (words : List String) → Except Stop Words
  | [] =>
    match waiting with
    | some option => .error (.valueMissing option)
    | none => .ok before
  | word :: rest => do
    match waiting with
    | some option =>
      if isOptionLike word then throw (.valueMissing option)
      readWords (← before.add option word) none rest
    | none =>
      if word = "--" then return { before with query := before.query ++ rest }
      if !isOptionLike word then
        return ← readWords { before with query := before.query ++ [word] } none rest
      match ← readOption word with
      | (option, some value) => readWords (← before.add option value) none rest
      | (option, none) => readWords before (some option) rest

/-! ## Arguments -/

/-- Where the catalogue comes from. -/
inductive Source
  /-- A configuration of the detector, in a file. -/
  | config (file : String)
  /-- A catalogue, in a file. -/
  | catalogue (file : String)
  deriving DecidableEq, Repr

/-- What a command line asks for. -/
structure Arguments where
  query : String
  source : Source
  kind : String
  name : String
  defaultField? : Option String
  /-- A file with documents to run the query against. -/
  docs? : Option String
  /-- How many of the found documents to print. -/
  topK : Nat
  deriving DecidableEq, Repr

/-- The values of options that the environment can give. -/
structure Environment where
  config? : Option String := none
  catalogue? : Option String := none
  kind? : Option String := none

/-- The value of an option, from the command line or else from the environment. -/
def Words.valueOr (w : Words) (option : OptionName) (fromEnvironment : Option String) :
    Except Stop (Option String) :=
  match w.options.lookup option, fromEnvironment with
  | some value, _ => .ok (some value)
  | none, none => .ok none
  | none, some value => do
    checkValue option value
    return some value

/-- The source of the catalogue, of which there has to be exactly one. -/
def chooseSource : (config? catalogue? : Option String) → Except Stop Source
  | some _, some _ => .error .conflict
  | some file, none => .ok (.config file)
  | none, some file => .ok (.catalogue file)
  | none, none => .error .catalogueMissing

/-- What the words of a command line ask for in an environment. -/
def Arguments.ofWords (env : Environment) (words : List String) : Except Stop Arguments := do
  let words ← readWords {} none words
  let config? ← words.valueOr .config env.config?
  let catalogue? ← words.valueOr .catalogue env.catalogue?
  let kind? ← words.valueOr .kind env.kind?
  let source ← chooseSource config? catalogue?
  if words.query.isEmpty then throw .queryMissing
  return {
    query := " ".intercalate words.query
    source
    kind := kind?.getD "boost"
    name := (words.options.lookup .name).getD "qty"
    defaultField? := words.options.lookup .defaultField
    docs? := words.options.lookup .docs
    topK := ((words.options.lookup .topK).bind readCount?).getD 10 }

end QuantityQuery.CommandLine
