import IndexCoverage.Graph.Artifact
import IndexCoverage.Json.Value
import IndexCoverage.Number.Tidied

/-! Artifacts from JSON documents. A field goes by its artifact name or by its
plain name; the artifact name wins when both are there. Null stands for the
default, fields with other names mean nothing, and every problem is reported, in
the order of the fields. -/

namespace IndexCoverage

inductive Step where
  | field (name : Text)
  | item (index : Nat)
  deriving DecidableEq

inductive Mismatch where
  | notObject
  | notList
  | notString
  | notInteger
  | loneSurrogate
  | notNumeral
  | fractional
  | notFinite
  | outOfRange
  deriving DecidableEq

structure Problem where
  place : List Step
  mismatch : Mismatch
  deriving DecidableEq

/-- A reading that goes on after a problem and keeps all of them. -/
abbrev Check := StateM (List Problem)

def report (place : List Step) (mismatch : Mismatch) : Check Unit :=
  modify (· ++ [⟨place, mismatch⟩])

structure FieldName where
  artifact : Text
  plain : Text

namespace FieldName

def repo : FieldName := ⟨"Repo", "repo"⟩
def unitType : FieldName := ⟨"UnitType", "unit_type"⟩
def unit : FieldName := ⟨"Unit", "unit"⟩
def path : FieldName := ⟨"Path", "path"⟩
def name : FieldName := ⟨"Name", "name"⟩
def kind : FieldName := ⟨"Kind", "kind"⟩
def file : FieldName := ⟨"File", "file"⟩
def start : FieldName := ⟨"Start", "start"⟩
def stop : FieldName := ⟨"End", "end"⟩
def defRepo : FieldName := ⟨"DefRepo", "def_repo"⟩
def defUnitType : FieldName := ⟨"DefUnitType", "def_unit_type"⟩
def defUnit : FieldName := ⟨"DefUnit", "def_unit"⟩
def defPath : FieldName := ⟨"DefPath", "def_path"⟩
def defs : FieldName := ⟨"Defs", "defs"⟩
def refs : FieldName := ⟨"Refs", "refs"⟩

def find? (name : FieldName) (fields : List (Text × Json.Value)) : Option (Text × Json.Value) :=
  let found := match fields.lookup name.artifact with
    | some value => some (name.artifact, value)
    | none => (fields.lookup name.plain).map fun value => (name.plain, value)
  match found with
  | some (_, .null) => none
  | found => found

end FieldName

def integerOfText (s : Text) : Except Mismatch Int :=
  if s.any fun c => c matches .lone _ then .error .loneSurrogate
  else
    match Numeral.tidied s with
    | .ok n => .ok n
    | .error .malformed => .error .notNumeral
    | .error .tooLong => .error .outOfRange

/-- The integer that a double is; it has to lie strictly between `-2 ^ 63` and `2 ^ 63`. -/
def integerOfFloat : Binary64 → Except Mismatch Int
  | .finite negative units =>
    if units % Binary64.unitsPerOne ≠ 0 then .error .fractional
    else
      let n := units / Binary64.unitsPerOne
      if n < Nat.pow 2 63 then .ok (if negative then -(n : Int) else n) else .error .outOfRange
  | _ => .error .notFinite

def integerOf : Json.Value → Except Mismatch Int
  | .int n => .ok n
  | .bool b => .ok (if b then 1 else 0)
  | .float x => integerOfFloat x
  | .str s => integerOfText s
  | _ => .error .notInteger

def stringOf : Json.Value → Except Mismatch Text
  | .str s => .ok s
  | _ => .error .notString

def readField {α : Type} (place : List Step) (fields : List (Text × Json.Value))
    (convert : Json.Value → Except Mismatch α) (default : α) (name : FieldName) : Check α :=
  match name.find? fields with
  | none => return default
  | some (key, value) =>
    match convert value with
    | .ok result => return result
    | .error mismatch => do
      report (place ++ [.field key]) mismatch
      return default

def readItems {α : Type} (read : List Step → Json.Value → Check (Option α)) (place : List Step)
    (index : Nat) : List Json.Value → Check (List α)
  | [] => return []
  | item :: rest => do
    let first ← read (place ++ [.item index]) item
    let others ← readItems read place (index + 1) rest
    return first.toList ++ others

def readList {α : Type} (place : List Step) (fields : List (Text × Json.Value))
    (read : List Step → Json.Value → Check (Option α)) (name : FieldName) : Check (List α) :=
  match name.find? fields with
  | none => return []
  | some (key, .arr items) => readItems read (place ++ [.field key]) 0 items
  | some (key, _) => do
    report (place ++ [.field key]) .notList
    return []

def Definition.read (place : List Step) : Json.Value → Check (Option Definition)
  | .obj fields => do
    let text := readField place fields stringOf []
    let number := readField place fields integerOf 0
    return some {
      repo := ← text .repo
      unitType := ← text .unitType
      unit := ← text .unit
      path := ← text .path
      name := ← text .name
      kind := ← text .kind
      file := ← text .file
      start := ← number .start
      stop := ← number .stop }
  | _ => do
    report place .notObject
    return none

def Reference.read (place : List Step) : Json.Value → Check (Option Reference)
  | .obj fields => do
    let text := readField place fields stringOf []
    let number := readField place fields integerOf 0
    return some {
      defRepo := ← text .defRepo
      defUnitType := ← text .defUnitType
      defUnit := ← text .defUnit
      defPath := ← text .defPath
      repo := ← text .repo
      unitType := ← text .unitType
      unit := ← text .unit
      file := ← text .file
      start := ← number .start
      stop := ← number .stop }
  | _ => do
    report place .notObject
    return none

def Artifact.read : Json.Value → Check Artifact
  | .obj fields => do
    let defs ← readList [] fields Definition.read .defs
    let refs ← readList [] fields Reference.read .refs
    return ⟨defs, refs⟩
  | _ => do
    report [] .notObject
    return ⟨[], []⟩

def Check.run {α : Type} (check : Check α) : Except (List Problem) α :=
  match StateT.run check [] with
  | (value, []) => .ok value
  | (_, problems) => .error problems

def Artifact.decode (document : Json.Value) : Except (List Problem) Artifact :=
  (Artifact.read document).run

end IndexCoverage
