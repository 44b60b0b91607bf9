import IndexCoverage.Coverage.SourceFile
import IndexCoverage.Graph.Artifact

/-! Counting definitions and references on the files they occur in. -/

namespace IndexCoverage

/-- The tracked files in the order of the walk; no two have one path. -/
abbrev Inventory := List SourceFile

/-- All that is known from the artifacts: the keys of definitions, and the artifacts. -/
structure GraphData where
  keys : List DefKey
  artifacts : List Artifact

namespace Inventory

def put (file : SourceFile) : Inventory → Inventory
  | [] => [file]
  | other :: rest => if other.path = file.path then file :: rest else other :: put file rest

/-- One change to the file with a path, and none if it is not tracked. -/
def change (path : Text) (f : SourceFile → SourceFile) (files : Inventory) : Inventory :=
  files.map fun file => if file.path = path then f file else file

end Inventory

def SourceFile.countRef (valid : Bool) (file : SourceFile) : SourceFile :=
  { file with
    numRefs := file.numRefs + 1
    numRefsValid := if valid then file.numRefsValid + 1 else file.numRefsValid }

def SourceFile.countDef (file : SourceFile) : SourceFile :=
  { file with numDefs := file.numDefs + 1 }

namespace GraphData

def foldRef (keys : List DefKey) (files : Inventory) (r : Reference) : Inventory :=
  files.change r.file (SourceFile.countRef (r.isValid keys))

def foldDef (files : Inventory) (d : Definition) : Inventory :=
  files.change d.file SourceFile.countDef

def foldArtifact (keys : List DefKey) (files : Inventory) (artifact : Artifact) : Inventory :=
  artifact.defs.foldl foldDef (artifact.refs.foldl (foldRef keys) files)

def foldInto (data : GraphData) (files : Inventory) : Inventory :=
  data.artifacts.foldl (foldArtifact data.keys) files

end GraphData
end IndexCoverage
