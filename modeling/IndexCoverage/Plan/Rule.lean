import IndexCoverage.Plan.TreeConfig

/-! The rules by which the units of a tree are built. Every unit has a rule that
resolves its dependencies and is in one rule that makes its graph, alone or with
the other units of its type. -/

namespace IndexCoverage

inductive Rule where
  /-- Makes the graph of one unit. -/
  | graph (target : Text) (unit : SourceUnit)
  /-- Makes the graphs of several units; each target belongs to one of them. -/
  | graphs (targets : List (Text × SourceUnit))
  | depResolve (target : Text) (unit : SourceUnit)
  deriving DecidableEq

namespace SourceUnit

def graphTarget (unit : SourceUnit) : Text := Text.join [unit.name, "/", unit.type, ".graph.json"]

def depResolveTarget (unit : SourceUnit) : Text :=
  Text.join [unit.name, "/", unit.type, ".depresolve.json"]

end SourceUnit

abbrev Targets := List (Text × SourceUnit)

/-- A plan that is being made: the rules so far, and the targets that are grouped by type. -/
structure Draft where
  rules : List Rule
  groups : List (Text × Targets)

namespace Draft

/-- The groups with one more target in that of a type, unless it is there. -/
def addTarget? (type target : Text) (unit : SourceUnit) :
    List (Text × Targets) → Option (List (Text × Targets))
  | [] => some [(type, [(target, unit)])]
  | (other, targets) :: rest =>
    if other = type then
      if targets.any (·.1 = target) then none
      else some ((other, targets ++ [(target, unit)]) :: rest)
    else (addTarget? type target unit rest).map ((other, targets) :: ·)

def add (grouped : List Text) (draft : Draft) (unit : SourceUnit) : Except PlanError Draft :=
  let rules := draft.rules ++ [.depResolve unit.depResolveTarget unit]
  if grouped.contains unit.type then
    match addTarget? unit.type unit.graphTarget unit draft.groups with
    | some groups => .ok ⟨rules, groups⟩
    | none => .error (.duplicate unit.type unit.name)
  else .ok ⟨rules ++ [.graph unit.graphTarget unit], draft.groups⟩

def finish (draft : Draft) : List Rule :=
  draft.rules ++ draft.groups.map fun (_, targets) => .graphs targets

end Draft

def TreeConfig.plan (config : TreeConfig) (grouped : List Text) : Except PlanError (List Rule) :=
  (config.units.foldlM (Draft.add grouped) ⟨[], []⟩).map Draft.finish

end IndexCoverage
