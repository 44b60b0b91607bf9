import IndexCoverage.Disk.Resolve
import IndexCoverage.Json.Shown
import IndexCoverage.Yaml.Value

/-! The settings of a repository, from a YAML file in its root directory. Without
the file they have their usual values, and so has each setting that is missing or
of the wrong kind. -/

namespace IndexCoverage

structure Settings where
  root : Path
  buildDataDir : Text := ".srclib-cache"
  cacheRepo : Bool := true
  multiUnitTypes : List Text := []
  deriving DecidableEq

namespace Settings

/-- The settings file that a path stands for: the one in it, or beside it, or itself. -/
def locate (disk : Disk) (asked : Path) : Except PathError Path := do
  let path ← disk.expandHome asked
  let isDir ← disk.isDir path
  disk.resolve <|
    if isDir then path.child settingsFileName
    else if path.name = settingsFileName then path
    else path.parent.child settingsFileName

def field? (fields : List (Yaml.Atom × Nat)) (graph : Yaml.Graph) (name : Text) :
    Option Yaml.Value :=
  (fields.reverse.lookup (.str name)).bind graph.value?

def numeral (n : Int) : Except Fault Text :=
  if Nat.pow 10 maxDigits ≤ n.natAbs then .error .numeral else .ok (Text.ofInt n)

def textOf (atom : Yaml.Atom) : Except Fault (Option Text) :=
  match atom with
  | .str s => .ok (some s)
  | .int n => (numeral n).map some
  | .float x => .ok (some x.text)
  | _ => .ok none

/-- Nothing but a string or a number names a directory, and not the empty string. -/
def directoryOf (value : Option Yaml.Value) : Except Fault (Option Text) :=
  match value with
  | some (.atom atom) => (textOf atom).map (·.filter (!·.isEmpty))
  | _ => .ok none

def truthOf : Option Yaml.Value → Option Bool
  | some (.atom (.bool b)) => some b
  | some (.atom (.str s)) =>
    let word := s.trim.lower
    if word = "true" ∨ word = "yes" ∨ word = "1" then some true
    else if word = "false" ∨ word = "no" ∨ word = "0" then some false
    else none
  | _ => none

def itemText (value : Option Yaml.Value) : Except Fault (Option Text) :=
  match value with
  | some (.atom (.bool b)) => .ok (some (Json.showBool b))
  | some (.atom atom) => textOf atom
  | _ => .ok none

/-- A string is a list of one; of a list, the items that are no text do not count. -/
def textsOf (graph : Yaml.Graph) : Option Yaml.Value → Except Fault (List Text)
  | some (.atom (.str s)) => .ok [s]
  | some (.atom (.bytes data)) => .ok (data.map fun byte => Text.ofNat byte.toNat)
  | some (.list items) => do
    let texts ← items.mapM fun item => itemText (graph.value? item)
    return texts.filterMap id
  | _ => .ok []

def ofFields (root : Path) (graph : Yaml.Graph) (fields : List (Yaml.Atom × Nat)) :
    Except Fault Settings := do
  let plain : Settings := { root }
  let dir ← directoryOf (field? fields graph "build_data_dir")
  let types ← textsOf graph (field? fields graph "multi_unit_types")
  return { root
           buildDataDir := dir.getD plain.buildDataDir
           cacheRepo := (truthOf (field? fields graph "cache_repo")).getD plain.cacheRepo
           multiUnitTypes := types }

def joinReturns : Text → List Char
  | [] => []
  | .char '\r' :: .char '\n' :: rest => '\n' :: joinReturns rest
  | .char '\r' :: rest => '\n' :: joinReturns rest
  | .char c :: rest => c :: joinReturns rest
  | .lone _ :: rest => joinReturns rest

/-- The settings in the text of the file with a name. A file that is empty, or
says null, has none. -/
def ofText (depth : Nat) (root : Path) (name : Text) (text : Text) : Except Failure Settings :=
  if text.isBlank then .ok { root }
  else
    match Yaml.read depth (joinReturns text) with
    | .error .yaml => .error (.settings (.unparsable name))
    | .error fault => .error (.fault fault)
    | .ok none => .ok { root }
    | .ok (some graph) =>
      match graph.value? graph.root with
      | some (.atom .null) => .ok { root }
      | some (.map fields) => (ofFields root graph fields).mapError .fault
      | _ => .error (.settings .notMapping)

/-- The settings at a path; nodes in their file may nest up to `depth`. -/
def load (disk : Disk) (depth : Nat) (asked : Path) : Except Failure Settings := do
  let file ← (locate disk asked).mapError .path
  let root ← (disk.resolve file.parent).mapError .path
  if !(← (disk.exists? file).mapError .path) then return { root }
  match disk.read file with
  | .error (.system e) => throw (.settings (.unreadable file.name e))
  | .error e => throw (.path e)
  | .ok bytes =>
    match Text.ofUtf8? false bytes with
    | none => throw (.fault .encoding)
    | some text => ofText depth root file.name text

def shown (settings : Settings) : Text :=
  (Json.Value.obj [
    ("root", .str settings.root.text),
    ("build_data_dir", .str settings.buildDataDir),
    ("cache_repo", .bool settings.cacheRepo),
    ("multi_unit_types", .arr (settings.multiUnitTypes.map .str))]).shown

end Settings
end IndexCoverage
