import ChainIngest.Document.Json
import ChainIngest.Document.Yaml
import ChainIngest.Settings.Decoding
import ChainIngest.Settings.Environment

/-!
Loading settings: from a file in JSON or YAML, with the environment over it.
-/

namespace ChainIngest.Settings

/-- Why settings cannot be loaded. -/
inductive LoadError where
  | noFile
  /-- The file is not in its format, or not a table. -/
  | unreadableFile
  | invalid (e : Document.DecodeError)
  deriving DecidableEq, Repr

/-- Formats of settings files. -/
inductive FileFormat where
  | json
  | yaml
  deriving DecidableEq, Repr

def FileFormat.read : FileFormat → String → Option Document
  | .json, text => (Json.read text).toOption
  | .yaml, text => (Yaml.read text).toOption

/-- The names that a settings file may have. The first one that is there is read. -/
def fileNames : List (String × FileFormat) :=
  [("config.json", .json), ("config.yaml", .yaml), ("config.yml", .yaml)]

/-- A text without the mark that may stand before it to tell its encoding. -/
def withoutByteOrderMark (text : String) : String :=
  match text.toList with
  | c :: rest => if c = Char.ofNat 0xFEFF then String.ofList rest else text
  | [] => text

/-- The text of the settings file, and its format. -/
def findFile? (files : List (String × String)) : Option (String × FileFormat) :=
  fileNames.findSome? fun (name, format) => (files.lookup name).map (·, format)

/-- The table in a settings file. -/
def readFile (files : List (String × String)) :
    Except LoadError (List (String × Document)) :=
  match findFile? files with
  | none => .error .noFile
  | some (text, format) =>
    match format.read (withoutByteOrderMark text) with
    | some (.table entries) => .ok entries
    | _ => .error .unreadableFile

/-- Settings from the entries of a file and an environment. The environment goes over the file. -/
def ofEntries (entries : List (String × Document)) (environment : List (String × String)) :
    Except LoadError Settings :=
  let document := overlay environment ((Document.table []).assignAll entries)
  (decode .lenient document).mapError .invalid

/-- Loads settings from the files of a directory and an environment. -/
def load (files environment : List (String × String)) : Except LoadError Settings := do
  ofEntries (← readFile files) environment

end ChainIngest.Settings
