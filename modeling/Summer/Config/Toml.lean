/-
The configuration registry (`summer/src/config/toml.rs`) and the remote documents that the
Nacos plugin merges into it (`summer-nacos/src/lib.rs`).

Parsing, the merging of two tables and the file system are parameters; what merging is known
to do is stated in `MergesTables`.
-/
import Mathlib.Data.List.Basic

namespace Summer.Config

inductive Value
  | string (s : String)
  | integer (n : Int)
  | float (text : String)
  | boolean (b : Bool)
  | datetime (text : String)
  | array (items : List Value)
  | table (entries : List (String × Value))

abbrev Table := List (String × Value)

inductive Kind
  | string
  | integer
  | float
  | boolean
  | datetime
  | array
  | table
deriving DecidableEq, Repr

namespace Value

def kind : Value → Kind
  | .string _ => .string
  | .integer _ => .integer
  | .float _ => .float
  | .boolean _ => .boolean
  | .datetime _ => .datetime
  | .array _ => .array
  | .table _ => .table

/-- The value at a path of keys; the path goes through tables only. -/
def valueAt : Value → List String → Option Value
  | v, [] => some v
  | .table t, key :: path => (t.lookup key).bind fun v => v.valueAt path
  | _, _ :: _ => none

end Value

def Table.valueAt (t : Table) (path : List String) : Option Value := (Value.table t).valueAt path

/-! ## Merging two tables -/

/-- The merge of two values under one key: arrays are concatenated, scalars of one type are
replaced. -/
inductive MergedValue (mergeTables : Table → Table → Except String Table) :
    Value → Value → Value → Prop
  | scalar {v w : Value} : v.kind = w.kind → v.kind ≠ .array → v.kind ≠ .table →
      MergedValue mergeTables v w w
  | array (a b : List Value) : MergedValue mergeTables (.array a) (.array b) (.array (a ++ b))
  | table {a b c : Table} : mergeTables a b = .ok c →
      MergedValue mergeTables (.table a) (.table b) (.table c)

/-- What `serde_toml_merge::merge_tables` does; values of different types are an error. -/
structure MergesTables (mergeTables : Table → Table → Except String Table) : Prop where
  left : ∀ {a b c key}, mergeTables a b = .ok c → b.lookup key = none →
    c.lookup key = a.lookup key
  right : ∀ {a b c key}, mergeTables a b = .ok c → a.lookup key = none →
    c.lookup key = b.lookup key
  both : ∀ {a b c key v w}, mergeTables a b = .ok c → a.lookup key = some v →
    b.lookup key = some w → ∃ u, c.lookup key = some u ∧ MergedValue mergeTables v w u

/-- `toml::from_str` and `merge_tables`, with the texts of their errors. -/
structure Toml where
  fromStr : String → Except String Table
  mergeTables : Table → Table → Except String Table

/-- `otherError` lists the contexts of an error, the outermost first. -/
inductive ConfigError
  | tomlParseError (detail : String)
  | tomlMergeError (detail : String)
  | otherError (chain : List String)
deriving DecidableEq, Repr

/-! ## Loading -/

structure Files where
  readToString : String → Except String String
  pathExists : String → Bool

/-- A path as `{:?}` prints it. -/
def debugPath (path : String) : String := "\"" ++ path ++ "\""

/-- `envPath` is what `env.get_config_path` returns. -/
def loadConfig (toml : Toml) (files : Files) (interpolate : String → String) (configPath : String)
    (envPath : Except ConfigError String) : Except ConfigError Table :=
  match files.readToString configPath with
  | .error _ => .ok []
  | .ok content =>
    match toml.fromStr (interpolate content) with
    | .error e =>
      .error (.otherError ["Failed to parse the toml file at path " ++ debugPath configPath, e])
    | .ok mainTable =>
      match envPath with
      | .error _ => .ok mainTable
      | .ok envPath =>
        if files.pathExists envPath = false then
          .ok mainTable
        else
          match files.readToString envPath with
          | .error e =>
            .error (.otherError ["Failed to read configuration file " ++ debugPath envPath, e])
          | .ok content =>
            match toml.fromStr (interpolate content) with
            | .error e =>
              .error (.otherError
                ["Failed to parse the toml file at path " ++ debugPath envPath, e])
            | .ok envTable =>
              match toml.mergeTables mainTable envTable with
              | .error e => .error (.otherError
                  ["Failed to merge files " ++ debugPath configPath ++ " and " ++ debugPath envPath,
                    "merge toml error: " ++ e])
              | .ok table => .ok table

/-! ## The registry -/

structure TomlConfigRegistry where
  config : Table

namespace TomlConfigRegistry

def default : TomlConfigRegistry := { config := [] }

def new (toml : Toml) (files : Files) (interpolate : String → String) (configPath : String)
    (envPath : Except ConfigError String) : Except ConfigError TomlConfigRegistry :=
  match loadConfig toml files interpolate configPath envPath with
  | .error e => .error e
  | .ok config => .ok { config := config }

def fromStr (toml : Toml) (str : String) : Except ConfigError TomlConfigRegistry :=
  match toml.fromStr str with
  | .error e => .error (.tomlParseError e)
  | .ok config => .ok { config := config }

/-- The result and the registry afterwards. -/
def mergeStr (toml : Toml) (registry : TomlConfigRegistry) (text : String) :
    Except ConfigError Unit × TomlConfigRegistry :=
  match toml.fromStr text with
  | .error e =>
    (.error (.otherError ["Failed to parse remote config as TOML", e]), registry)
  | .ok overlay =>
    match toml.mergeTables registry.config overlay with
    | .error e => (.error (.tomlMergeError e), registry)
    | .ok config => (.ok (), { config := config })

def getByPrefix (registry : TomlConfigRegistry) (key : String) : Table :=
  match registry.config.lookup key with
  | some (.table table) => table
  | _ => []

/-- `merge_str` for each text in turn, whatever it returns. -/
def mergeAll (toml : Toml) (registry : TomlConfigRegistry) (texts : List String) :
    TomlConfigRegistry :=
  texts.foldl (fun registry text => (mergeStr toml registry text).2) registry

/-- The loop of `on_config_event` over the bootstrap entries; `fetched` is what
`get_config` returned for each. -/
def mergeBootstrap (toml : Toml) (registry : TomlConfigRegistry)
    (fetched : List (Except String String)) : TomlConfigRegistry :=
  fetched.foldl (fun registry response =>
    match response with
    | .error _ => registry
    | .ok content => (mergeStr toml registry content).2) registry

end TomlConfigRegistry

/-! ## The documents that were applied -/

section
variable (toml : Toml) (files : Files) (interpolate : String → String)

/-- The document in a file, if there is one. -/
def document (path : String) : Option Table :=
  (files.readToString path).toOption.bind fun content =>
    (toml.fromStr (interpolate content)).toOption

/-- The main document and the profile of the environment. -/
def loadedDocuments (configPath : String) (envPath : Except ConfigError String) : List Table :=
  match document toml files interpolate configPath with
  | none => []
  | some mainTable =>
    match envPath with
    | .error _ => [mainTable]
    | .ok envPath =>
      if files.pathExists envPath = false then
        [mainTable]
      else
        mainTable :: (document toml files interpolate envPath).toList

end

/-- The overlays among the texts that were merged without an error. -/
def appliedDocuments (toml : Toml) (registry : TomlConfigRegistry) : List String → List Table
  | [] => []
  | text :: texts =>
    let merged := registry.mergeStr toml text
    match merged.1, toml.fromStr text with
    | .ok (), .ok overlay => overlay :: appliedDocuments toml merged.2 texts
    | _, _ => appliedDocuments toml merged.2 texts

end Summer.Config
