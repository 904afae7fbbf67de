import FlexFold.Settings.Yaml

/-!
Settings that stand in a file. The extension of the file tells its format.
-/

namespace FlexFold.Settings

inductive LoadFault where
  | unreadable (path : Path) (fault : StoreFault)
  | badYaml (fault : Yaml.Fault)
  | badJson (error : Json.Error)
  | unknownFormat (path : Path)
deriving DecidableEq, Repr

def LoadFault.message : LoadFault → String
  | .unreadable path fault =>
      "Failed to read config file " ++ path.text ++ ": " ++ fault.message
  | .badYaml fault => "Failed to parse YAML config: " ++ fault.message
  | .badJson error => "Failed to parse JSON config: " ++ error.message
  | .unknownFormat path =>
      "Unsupported config file format: " ++ path.text ++ ". Use .yaml, .yml, or .json"

inductive Format where
  | yaml
  | json
deriving DecidableEq, Repr

/-- The format of a file, which its extension tells. -/
def Format.ofPath? (path : Path) : Option Format :=
  match path.extension? with
  | some "yaml" | some "yml" => some .yaml
  | some "json" => some .json
  | _ => none

/-- Load the settings that stand in a file. -/
def load (store : Store) (path : Path) (refusals : Refusals := fun _ => none) :
    Except LoadFault Settings :=
  match Format.ofPath? path with
  | none => .error (.unknownFormat path)
  | some format =>
      match store.readAllowed refusals path with
      | .error fault => .error (.unreadable path fault)
      | .ok text =>
          match format with
          | .yaml => (parseYaml store.workingDirectory text).mapError .badYaml
          | .json => (parseJson store.workingDirectory text).mapError .badJson

end FlexFold.Settings
