import QuantityQuery.Config.Json
import QuantityQuery.Config.Path
import QuantityQuery.Parser.Registry

/-!
# Setting up parsers

Detectors are set up from configurations and registered. Files are read by a given
function, in any monad, so that a configuration can be set up from a disk or from
a table of texts.

* `Config.ofFile`: a configuration read from a file;
* `Config.setUp`: the detector of a configuration, with a report;
* `Registry.registerConfig`: the detector set up and registered.
-/

namespace QuantityQuery

/-- The catalogue of a text. -/
def Catalogue.ofText (text : String) : Except Error Catalogue := do
  let fields ← (Json.decode Catalogue.readFields text).mapError .data
  (Catalogue.ofFields fields).mapError .config

/-- The configuration of a text. -/
def Config.ofText (text : String) : Except Error Config :=
  (Json.decode Config.ofJson text).mapError .data

/-- The source of a catalogue in a configuration file: a relative path starts from the directory of
    the file. -/
def CatalogueSource.fromFile (configuration : String) : CatalogueSource → CatalogueSource
  | .file path => .file (Path.join (Path.directory configuration) path)
  | .inline fields => .inline fields

section Files

variable {m : Type → Type} [Monad m] (readFile : String → m (Except String String))

/-- The configuration in a file. -/
def Config.ofFile (file : String) : m (Except Error Config) := do
  match ← readFile file with
  | .error reason => return .error (.file reason)
  | .ok text =>
    return (Config.ofText text).map fun c => { c with catalogue := c.catalogue.fromFile file }

/-- The catalogue of a source. -/
def CatalogueSource.load : CatalogueSource → m (Except Error Catalogue)
  | .file path => do
    match ← readFile path with
    | .error reason => return .error (.file reason)
    | .ok text => return Catalogue.ofText text
  | .inline fields => return (Catalogue.ofFields fields).mapError .config

/-- The detector of a configuration, with a report. -/
def Config.setUp (c : Config) : m (Reported (Except Error Detector)) := do
  match ← c.catalogue.load readFile with
  | .error e => return .silent (.error e)
  | .ok catalogue =>
    let detector : Reported Detector := do
      ⟨(), catalogue.events⟩
      Detector.setUp c.name c.style catalogue ⟨c.settings⟩
    return ⟨.ok detector.value, detector.events⟩

/-- Registers the detector of a configuration, with a report: the detector, and the registry
    afterwards. -/
def Registry.registerConfig (reg : Registry) (c : Config) :
    m (Reported (Except Error Detector × Registry)) := do
  let ⟨setUp, events⟩ ← c.setUp readFile
  match setUp with
  | .error e => return ⟨(.error e, reg), events⟩
  | .ok d =>
    let ⟨(registered, reg), more⟩ := reg.registerReported (.detector d)
    return ⟨(registered.map fun () => d, reg), events ++ more⟩

end Files

end QuantityQuery
