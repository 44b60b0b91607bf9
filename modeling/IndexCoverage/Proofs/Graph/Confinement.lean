import IndexCoverage.Proofs.Coverage.Once
import IndexCoverage.Proofs.Text.Cutting

/-! Names stay below the root of their store. A name is refused exactly if it starts at the top or
has a component that leads back; any other leads to what its components say, seen from the root.
So loading the graphs of a tree depends on nothing but files that lie below the root, whatever its
units are called. -/

namespace IndexCoverage

namespace Path

/-- The path is the root or lexically below it: what comes behind the parts of the root are names,
and none of them leads back. -/
def IsWithin (path root : Path) : Prop :=
  ∃ names : List Text, (∀ name ∈ names, name ≠ [] ∧ name ≠ dot ∧ name ≠ dotDot ∧ slash ∉ name) ∧
    path = ⟨root.anchor, root.parts ++ names⟩

end Path

namespace Store

variable {store : Store} {name : Text}

theorem locate_eq_error_iff (store : Store) (name : Text) :
    store.locate name = .error (.outside name) ↔ Escapes name := by
  refine ⟨fun refused => ?_, locate_of_escapes store⟩
  by_contra stays
  rw [locate_of_not_escapes store stays] at refused
  simp at refused

theorem isWithin_of_locate {path : Path} (h : store.locate name = .ok path) :
    path.IsWithin store.root := by
  refine ⟨Path.partsOf (withSlashes name), fun part inside => ?_, eq_of_locate h⟩
  obtain ⟨nonempty, notDot, whole⟩ := Path.of_mem_partsOf inside
  refine ⟨nonempty, notDot, ?_, whole⟩
  rintro rfl
  rw [locate_of_escapes store (.inr (List.mem_of_mem_filter inside))] at h
  simp at h

end Store

theorem SourceUnit.partsOf_graphTarget_ne_nil (unit : SourceUnit) :
    Path.partsOf (Store.withSlashes unit.graphTarget) ≠ [] := by
  have letter : CodePoint.char 'g' ∈ Store.withSlashes unit.graphTarget := by
    refine List.mem_map.mpr ⟨.char 'g', ?_, rfl⟩
    rw [unit.graphTarget_eq]
    have inSuffix : CodePoint.char 'g' ∈ SourceUnit.artifactSuffix := by decide
    simp [inSuffix]
  rw [← Text.intercalate_splitOn Path.slash (Store.withSlashes unit.graphTarget)] at letter
  obtain ⟨part, inside, within⟩ := (Text.mem_intercalate letter).resolve_left (by decide)
  have counts : part ∈ Path.partsOf (Store.withSlashes unit.graphTarget) := by
    refine List.mem_filter.mpr ⟨inside, ?_⟩
    have nonempty : part ≠ [] := List.ne_nil_of_mem within
    have notDot : part ≠ Path.dot := by
      rintro rfl
      exact absurd within (by decide)
    simp [nonempty, notDot]
  exact List.ne_nil_of_mem counts

theorem ne_root_of_locate_graphTarget {store : Store} {unit : SourceUnit} {path : Path}
    (h : store.locate unit.graphTarget = .ok path) : path ≠ store.root := by
  rw [Store.eq_of_locate h]
  intro same
  have parts := congrArg Path.parts same
  exact unit.partsOf_graphTarget_ne_nil (List.append_right_eq_self.mp parts)

section Agreement

variable {disk other : Disk} {store : Store}

theorem findArtifact_congr {target : Text}
    (agree : ∀ path, store.locate target = .ok path → other.read path = disk.read path) :
    findArtifact other store target = findArtifact disk store target := by
  have same : store.read other target = store.read disk target := by
    cases located : store.locate target with
    | error e => rw [Store.read, Store.read, located]; rfl
    | ok path =>
      rw [Store.read_of_locate located, Store.read_of_locate located, agree path located]
  rw [findArtifact, findArtifact, Store.readJson, Store.readJson, same]

theorem load_congr {rules : List Rule}
    (agree : ∀ path ∈ lookups store rules, other.read path = disk.read path) :
    GraphData.load other store rules = GraphData.load disk store rules := by
  rw [GraphData.load, GraphData.load, List.foldlM_eq_foldl, List.foldlM_eq_foldl]
  refine List.foldl_ext _ _ _ fun before target inside => ?_
  have same : findArtifact other store target.1 = findArtifact disk store target.1 := by
    refine findArtifact_congr fun path located => agree path ?_
    exact List.mem_filterMap.mpr ⟨target, inside, toOption_eq_some_iff.mpr located⟩
  refine congrArg (before >>= ·) (funext fun data => ?_)
  simp only [GraphData.loadOne, same]

end Agreement

/-- No name leads out of its store. It is refused exactly if it would, and where it leads otherwise
is told by its components. So a load of the graphs of a tree looks at nothing that is not below
the root. -/
theorem names_confined (store : Store) :
    (∀ name, (store.locate name = .error (.outside name) ↔ Store.Escapes name) ∧
      (¬Store.Escapes name →
        store.locate name = .ok (store.pathOf name) ∧
        (store.pathOf name).IsWithin store.root ∧
        ∀ disk : Disk, store.read disk name = (disk.read (store.pathOf name)).mapError .path)) ∧
    ∀ (config : TreeConfig) (grouped : List Text) (rules : List Rule),
      config.plan grouped = .ok rules →
      (∀ path ∈ lookups store rules, path.IsWithin store.root ∧ path ≠ store.root) ∧
      ∀ disk other : Disk, (∀ path ∈ lookups store rules, other.read path = disk.read path) →
        GraphData.load other store rules = GraphData.load disk store rules := by
  refine ⟨fun name => ⟨Store.locate_eq_error_iff store name, fun stays => ?_⟩, ?_⟩
  · have located := Store.locate_of_not_escapes store stays
    exact ⟨located, Store.isWithin_of_locate located, Store.read_of_locate located⟩
  · intro config grouped rules planned
    refine ⟨fun path looked => ?_, fun disk other => load_congr⟩
    obtain ⟨target, inside, located⟩ := List.mem_filterMap.mp looked
    rw [toOption_eq_some_iff] at located
    obtain ⟨unit, -, rfl⟩ := List.mem_map.mp ((TreeConfig.perm_plan planned).mem_iff.mp inside)
    exact ⟨Store.isWithin_of_locate located, ne_root_of_locate_graphTarget located⟩

section Prowling

def prowlingConfig : TreeConfig := ⟨[⟨"a", "go", [], []⟩, ⟨"..", "go", [], []⟩]⟩

def prowlingRules : List Rule :=
  [.depResolve "a/go.depresolve.json" ⟨"a", "go", [], []⟩,
    .graph "a/go.graph.json" ⟨"a", "go", [], []⟩,
    .depResolve "../go.depresolve.json" ⟨"..", "go", [], []⟩,
    .graph "../go.graph.json" ⟨"..", "go", [], []⟩]

def prowlingStore : Store := ⟨⟨.root, ["data"]⟩, 970⟩

def prowlingDisk (beside : Bytes) : Disk where
  top := .dir [("data", .dir [("a", .dir [("go.graph.json", .file [])])]),
    ("go.graph.json", .file beside)]
  workDir := []
  home := "/"

theorem names_confined_prowling :
    Store.Escapes "..\\go.graph.json" ∧
      prowlingStore.locate "..\\go.graph.json" = .error (.outside "..\\go.graph.json") ∧
      ¬Store.Escapes "a\\.//go.graph.json" ∧
      prowlingStore.locate "a\\.//go.graph.json" =
        .ok ⟨.root, ["data", "a", "go.graph.json"]⟩ ∧
      prowlingConfig.plan [] = .ok prowlingRules ∧
      lookups prowlingStore prowlingRules = [⟨.root, ["data", "a", "go.graph.json"]⟩] ∧
      (⟨.root, ["data", "a", "go.graph.json"]⟩ : Path).IsWithin prowlingStore.root ∧
      (prowlingDisk []).read ⟨.root, ["go.graph.json"]⟩ ≠
        (prowlingDisk [32]).read ⟨.root, ["go.graph.json"]⟩ ∧
      GraphData.load (prowlingDisk [32]) prowlingStore prowlingRules =
        GraphData.load (prowlingDisk []) prowlingStore prowlingRules := by
  have read (beside : Bytes) :
      (prowlingDisk beside).read ⟨.root, ["data", "a", "go.graph.json"]⟩ = .ok [] :=
    Disk.read_of_walk rfl rfl rfl (by decide) rfl rfl
  have outside (beside : Bytes) :
      (prowlingDisk beside).read ⟨.root, ["go.graph.json"]⟩ = .ok beside :=
    Disk.read_of_walk rfl rfl rfl (by decide) rfl rfl
  have looked : lookups prowlingStore prowlingRules =
      [⟨.root, ["data", "a", "go.graph.json"]⟩] := by decide
  have escapes : Store.Escapes "..\\go.graph.json" := by decide
  have stays : ¬Store.Escapes "a\\.//go.graph.json" := by decide
  obtain ⟨named, loaded⟩ := names_confined prowlingStore
  have planned : prowlingConfig.plan [] = .ok prowlingRules := rfl
  obtain ⟨within, same⟩ := loaded prowlingConfig [] prowlingRules planned
  refine ⟨escapes, (named _).1.mpr escapes, stays, ((named _).2 stays).1, planned, looked,
    (within _ (by simp [looked])).1, ?_, same _ _ ?_⟩
  · rw [outside, outside]
    simp
  · intro path inside
    obtain rfl := by simpa [looked] using inside
    rw [read, read]

end Prowling
end IndexCoverage
