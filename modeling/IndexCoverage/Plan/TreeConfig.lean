import IndexCoverage.Json.Shown
import IndexCoverage.Store

/-! The configuration of a tree: its source units. It is a document of the store. -/

namespace IndexCoverage

structure SourceUnit where
  name : Text
  type : Text
  dir : Text := []
  files : List Text := []
  deriving DecidableEq

structure TreeConfig where
  units : List SourceUnit
  deriving DecidableEq

namespace TreeConfig

def fileName : Text := "config.json"

def namesIn : Json.Value → Except Failure (List Text)
  | .arr items => .ok (items.filterMap fun item => match item with
    | .str s => some s
    | _ => none)
  | .str s => .ok (s.map ([·]))
  | .obj fields => .ok (fields.map (·.1))
  | value => if value.counts then .error (.fault .notIterable) else .ok []

def someText? : Option Json.Value → Option Text
  | some (.str s) => if s.isEmpty then none else some s
  | _ => none

def readUnit (index : Nat) : Json.Value → Except Failure SourceUnit
  | .obj fields =>
    match someText? (Json.get? "Name" fields), someText? (Json.get? "Type" fields) with
    | some name, some type => do
      let dir := ((Json.get? "Dir" fields).filter Json.Value.counts).elim [] Json.Value.shown
      let files ← namesIn ((Json.get? "Files" fields).getD .null)
      return ⟨name, type, dir, files⟩
    | _, _ => .error (.plan (.unitNameless index))
  | _ => .error (.plan (.unitNotMapping index))

def readUnits (index : Nat) : List Json.Value → Except Failure (List SourceUnit)
  | [] => .ok []
  | item :: rest => do
    let unit ← readUnit index item
    let units ← readUnits (index + 1) rest
    return unit :: units

def ofDocument : Json.Value → Except Failure TreeConfig
  | .obj fields =>
    match (Json.get? "SourceUnits" fields).filter Json.Value.counts with
    | none => .ok ⟨[]⟩
    | some (.arr items) => (readUnits 0 items).map TreeConfig.mk
    | some _ => .error (.plan .unitsNotList)
  | _ => .error (.plan .notMapping)

def read (disk : Disk) (store : Store) : Except Failure TreeConfig :=
  match store.readJson disk fileName with
  | .ok document => ofDocument document
  | .error (.fault (.tooDeep bracket)) => .error (.fault (.tooDeep bracket))
  | .error e => .error (.plan (.unreadable store.shown e))

end TreeConfig
end IndexCoverage
