import IndexCoverage.Proofs.Coverage.Ordering
import IndexCoverage.Proofs.Plan.Places
import Mathlib.Algebra.Ring.Nat

/-! How often an artifact is counted: once for every unit that leads to it. A plan has the target
of each unit once, however the units are grouped, and refuses two equal targets only of a type that
is grouped; so nothing is counted twice exactly if the targets of the units lead apart. -/

namespace IndexCoverage

def lookups (store : Store) (rules : List Rule) : List Path :=
  (rules.flatMap Rule.artifacts).filterMap fun target => (store.locate target.1).toOption

theorem perm_lookups {config : TreeConfig} {grouped : List Text} {rules : List Rule}
    (planned : config.plan grouped = .ok rules) (store : Store) :
    (lookups store rules).Perm
      ((config.units.filter (·.Stays)).map fun unit => store.pathOf unit.graphTarget) := by
  have looked := (TreeConfig.perm_plan planned).filterMap fun target =>
    (store.locate target.1).toOption
  have staying : config.targets.filterMap (fun target => (store.locate target.1).toOption) =
      (config.units.filter (·.Stays)).map fun unit => store.pathOf unit.graphTarget := by
    rw [TreeConfig.targets, List.filterMap_map, ← List.filterMap_eq_filter, List.map_filterMap]
    refine List.filterMap_congr fun unit _ => ?_
    rw [Function.comp_apply, Store.toOption_locate]
    by_cases escapes : Store.Escapes unit.graphTarget <;>
      simp [escapes, SourceUnit.Stays, Option.guard]
  exact staying ▸ looked

structure Placed where
  path : Path
  unit : SourceUnit
  artifact : Artifact

def placed? (disk : Disk) (store : Store) (unit : SourceUnit) : Option Placed :=
  match store.locate unit.graphTarget, findArtifact disk store unit.graphTarget with
  | .ok path, .ok (.artifact artifact) => some ⟨path, unit, artifact⟩
  | _, _ => none

/-- The artifacts of units, once for every unit that leads to one. -/
def placed (disk : Disk) (store : Store) (units : List SourceUnit) : List Placed :=
  units.filterMap (placed? disk store)

theorem placed?_of_found {disk : Disk} {store : Store} {unit : SourceUnit} {path : Path}
    {artifact : Artifact} (located : store.locate unit.graphTarget = .ok path)
    (found : findArtifact disk store unit.graphTarget = .ok (.artifact artifact)) :
    placed? disk store unit = some ⟨path, unit, artifact⟩ := by
  rw [placed?, located, found]

theorem placed?_eq_some {disk : Disk} {store : Store} {unit : SourceUnit} {found : Placed}
    (h : placed? disk store unit = some found) :
    found.path = store.pathOf found.unit.graphTarget := by
  unfold placed? at h
  split at h
  · next path artifact located read =>
    obtain rfl := Option.some.inj h
    rw [Store.eq_of_locate located, Store.pathOf, ← Store.partsOf_withSlashes]
  · simp at h

theorem loaded?_eq_map (disk : Disk) (store : Store) (unit : SourceUnit) :
    loaded? disk store (unit.graphTarget, unit) =
      (placed? disk store unit).map fun found => (found.unit, found.artifact) := by
  rw [loaded?, placed?]
  cases located : store.locate unit.graphTarget with
  | ok path => cases findArtifact disk store unit.graphTarget with
    | error e => rfl
    | ok found => cases found <;> rfl
  | error e =>
    have refused : findArtifact disk store unit.graphTarget = .error e := by
      rw [findArtifact, Store.readJson, Store.read, located, Store.eq_outside_of_locate located]
      rfl
    rw [refused]
    rfl

theorem perm_loaded_placed {config : TreeConfig} {grouped : List Text} {rules : List Rule}
    (planned : config.plan grouped = .ok rules) (disk : Disk) (store : Store) :
    (loaded disk store rules).Perm
      ((placed disk store config.units).map fun found => (found.unit, found.artifact)) := by
  have perm := (TreeConfig.perm_plan planned).filterMap (loaded? disk store)
  rw [TreeConfig.targets, List.filterMap_map] at perm
  have same := List.filterMap_congr fun unit (_ : unit ∈ config.units) =>
    loaded?_eq_map disk store unit
  rw [placed, List.map_filterMap, ← same]
  exact perm

theorem nodup_placed_iff (disk : Disk) (store : Store) (units : List SourceUnit) :
    ((placed disk store units).map Placed.path).Nodup ↔
      SourceUnit.LeadApart ((placed disk store units).map Placed.unit) := by
  rw [← SourceUnit.nodup_pathOf_iff store, List.map_map]
  refine iff_of_eq (congrArg List.Nodup (List.map_congr_left fun found inside => ?_))
  obtain ⟨unit, -, here⟩ := List.mem_filterMap.mp inside
  exact placed?_eq_some here

namespace GraphData

theorem count_of_artifacts {data : GraphData} {found : List Placed}
    (h : data.artifacts.Perm (found.map fun placed => placed.artifact.normalize placed.unit))
    (file : SourceFile) :
    data.count file = file.counting
      (found.map fun placed => placed.artifact.refs.countP (·.file = file.path)).sum
      (found.map fun placed => (placed.artifact.normalize placed.unit).refs.countP
        (isValidIn data.keys file.path)).sum
      (found.map fun placed => placed.artifact.defs.countP (·.file = file.path)).sum := by
  have refs : data.refs.Perm _ := h.flatMap_right Artifact.refs
  have defs : data.defs.Perm _ := h.flatMap_right Artifact.defs
  rw [count, countIn, refs.countP_eq, refs.countP_eq, defs.countP_eq, List.flatMap_map,
    List.flatMap_map, List.countP_flatMap, List.countP_flatMap, List.countP_flatMap]
  simp only [Function.comp_def, Artifact.normalize, List.countP_map]
  rfl

end GraphData

def shuffledGrouped : List Rule :=
  [.depResolve "a/go.depresolve.json" ⟨"a", "go", [], []⟩,
    .depResolve "b/go.depresolve.json" ⟨"b", "go", [], []⟩,
    .graphs [("a/go.graph.json", ⟨"a", "go", [], []⟩), ("b/go.graph.json", ⟨"b", "go", [], []⟩)]]

section Colliding

/-- Two units of which one's type goes on where the other's name does. -/
def collidingConfig : TreeConfig := ⟨[⟨"a", "b/c", [], []⟩, ⟨"a/b", "c", [], []⟩]⟩

def collidingRules : List Rule :=
  [.depResolve "a/b/c.depresolve.json" ⟨"a", "b/c", [], []⟩,
    .depResolve "a/b/c.depresolve.json" ⟨"a/b", "c", [], []⟩,
    .graphs [("a/b/c.graph.json", ⟨"a", "b/c", [], []⟩)],
    .graphs [("a/b/c.graph.json", ⟨"a/b", "c", [], []⟩)]]

def repeatedConfig : TreeConfig := ⟨[⟨"a/b", "c", [], []⟩, ⟨"a/b", "c", [], []⟩]⟩

def repeatedRules : List Rule :=
  [.depResolve "a/b/c.depresolve.json" ⟨"a/b", "c", [], []⟩,
    .graph "a/b/c.graph.json" ⟨"a/b", "c", [], []⟩,
    .depResolve "a/b/c.depresolve.json" ⟨"a/b", "c", [], []⟩,
    .graph "a/b/c.graph.json" ⟨"a/b", "c", [], []⟩]

def collidingArtifact : Artifact := ⟨[⟨[], [], [], "f", [], [], "main.go", 0, 0⟩], []⟩

def collidingDisk : Disk where
  top := .dir [("a", .dir [("b", .dir [("c.graph.json",
    .file (documentBytes (artifactDocument [defDocument "f" "main.go"] [])))])])]
  workDir := []
  home := "/"

end Colliding
end IndexCoverage
