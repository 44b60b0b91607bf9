import IndexCoverage.Coverage.Fold
import IndexCoverage.Log.Record
import IndexCoverage.Plan.Rule

/-! Loading the artifacts that the rules of a plan make. The keys of definitions,
and of what references point at, are made comparable across units. A unit whose
artifact is missing or empty is passed over with a warning; the first artifact
that cannot be read ends the loading. One that nests too far is a failure of its
own. -/

namespace IndexCoverage

/-- The key without its repository; an empty unit type or name is that of the unit it comes from. -/
def DefKey.normalize (unit : SourceUnit) (key : DefKey) : DefKey where
  repo := []
  unitType := if key.unitType.isEmpty then unit.type else key.unitType
  unit := if key.unit.isEmpty then unit.name else key.unit
  path := key.path

theorem DefKey.normalize_normalize (unit : SourceUnit) (key : DefKey) :
    (key.normalize unit).normalize unit = key.normalize unit := by
  simp only [normalize, DefKey.mk.injEq, true_and, and_true]
  constructor <;> split <;> simp_all

def Rule.artifacts : Rule → List (Text × SourceUnit)
  | .graph target unit => [(target, unit)]
  | .graphs targets => targets
  | .depResolve _ _ => []

def Artifact.normalize (unit : SourceUnit) (artifact : Artifact) : Artifact :=
  { artifact with refs := artifact.refs.map fun r => r.pointTo (r.key.normalize unit) }

/-- How an artifact is found: what it holds, or that the unit is passed over. -/
inductive Found where
  | artifact (artifact : Artifact)
  | empty
  | missing

def findArtifact (disk : Disk) (store : Store) (target : Text) : Except StoreError Found :=
  match store.readJson disk target with
  | .ok document =>
    match Artifact.decode document with
    | .ok artifact => .ok (.artifact artifact)
    | .error problems => .error (.fault (.artifact problems))
  | .error (.empty _) => .ok .empty
  | .error (.path (.system ⟨.notFound, _⟩)) => .ok .missing
  | .error e => .error e

namespace GraphData

def addKey (keys : List DefKey) (key : DefKey) : List DefKey :=
  if keys.contains key then keys else keys ++ [key]

def add (unit : SourceUnit) (artifact : Artifact) (data : GraphData) : GraphData where
  keys := (artifact.defs.map fun d => d.key.normalize unit).foldl addKey data.keys
  artifacts := data.artifacts ++ [artifact.normalize unit]

def note (level : Level) (message : Text) : Logged Failure Unit :=
  Logged.note "loader" level message

def loadOne (disk : Disk) (store : Store) (data : GraphData) (target : Text)
    (unit : SourceUnit) : Logged Failure GraphData := do
  match findArtifact disk store target with
  | .error (.fault (.tooDeep bracket)) => throw (.fault (.tooDeep bracket))
  | .error cause => throw (.graphData ⟨target, unit.type, unit.name, cause⟩)
  | .ok .empty =>
    note .warning (Text.join ["the JSON file is empty for unit ", unit.type, " ", unit.name])
    return data
  | .ok .missing =>
    note .warning (Text.join ["no build data for unit ", unit.type, " ", unit.name])
    return data
  | .ok (.artifact artifact) =>
    note .debug (Text.join ["Loaded ", Text.ofNat artifact.defs.length, " defs and ",
      Text.ofNat artifact.refs.length, " refs for unit ", unit.type, " ", unit.name])
    return data.add unit artifact

def load (disk : Disk) (store : Store) (rules : List Rule) : Logged Failure GraphData :=
  (rules.flatMap Rule.artifacts).foldlM
    (fun data (target, unit) => loadOne disk store data target unit) ⟨[], []⟩

end GraphData
end IndexCoverage
