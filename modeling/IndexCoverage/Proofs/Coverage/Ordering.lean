import IndexCoverage.Proofs.Coverage.Grouping
import IndexCoverage.Proofs.Disk.Editing
import IndexCoverage.Proofs.Graph.Reordering
import IndexCoverage.Proofs.Inventory.Building
import IndexCoverage.Proofs.Plan.Guard

/-! The order of the build data has no part in the report: not that of the source units,
and not that of the definitions and references of an artifact. -/

namespace IndexCoverage
namespace GraphData

theorem perm_flatMap {α β γ : Type} {f : α → List γ} {g : β → List γ} {items : List α}
    {more : List β} (h : List.Forall₂ (fun a b => (f a).Perm (g b)) items more) :
    (items.flatMap f).Perm (more.flatMap g) := by
  induction h with
  | nil => exact .refl _
  | cons first _ ih =>
    rw [List.flatMap_cons, List.flatMap_cons]
    exact first.append ih

theorem sameContent_addAll {units more : List (SourceUnit × Artifact)}
    (h : List.Forall₂ (fun a b => a.1 = b.1 ∧ a.2.SameLists b.2) units more) :
    (addAll ⟨[], []⟩ units).SameContent (addAll ⟨[], []⟩ more) := by
  have normal : List.Forall₂ (fun a b => (a.2.normalize a.1).SameLists (b.2.normalize b.1))
      units more :=
    h.imp fun a b same => by
      rw [same.1]
      exact same.2.normalize b.1
  constructor
  · intro key
    have keys : (units.flatMap fun found => found.2.defs.map fun d => d.key.normalize found.1).Perm
        (more.flatMap fun found => found.2.defs.map fun d => d.key.normalize found.1) :=
      perm_flatMap (h.imp fun a b same => by
        rw [same.1]
        exact same.2.1.map _)
    simpa [mem_keys_addAll] using keys.mem_iff (a := key)
  · rw [refs_addAll, refs_addAll]
    exact perm_flatMap (normal.imp fun a b same => same.2)
  · rw [defs_addAll, defs_addAll]
    exact perm_flatMap (normal.imp fun a b same => same.1)

theorem SameContent.trans {data other more : GraphData} (first : data.SameContent other)
    (second : other.SameContent more) : data.SameContent more where
  keys key := (first.keys key).trans (second.keys key)
  refs := first.refs.trans second.refs
  defs := first.defs.trans second.defs

variable {disk other : Disk} {store : Store}

theorem load_reordered (h : store.Reordered disk other) {rules others : List Rule}
    (perm : (rules.flatMap Rule.artifacts).Perm (others.flatMap Rule.artifacts)) {log : Log}
    {data : GraphData} (loading : Logged.outcome (load disk store rules) log = .ok data)
    (again : Log) :
    ∃ more, Logged.outcome (load other store others) again = .ok more ∧
      data.SameContent more := by
  obtain rfl := outcome_load_eq_ok loading
  have readable : ∀ target ∈ rules.flatMap Rule.artifacts,
      loadFailure? disk store target = none := by
    rw [← List.findSome?_eq_none_iff]
    rw [outcome_load] at loading
    split at loading
    · simp at loading
    · assumption
  have readableThere : (others.flatMap Rule.artifacts).findSome? (loadFailure? other store) =
      none := by
    rw [List.findSome?_eq_none_iff]
    intro target inside
    exact loadFailure?_reordered h (readable target (perm.mem_iff.mpr inside))
  refine ⟨_, by rw [outcome_load, readableThere], ?_⟩
  have artifacts : (addAll ⟨[], []⟩ (loaded disk store rules)).Alike
      (addAll ⟨[], []⟩ (loaded disk store others)) := alike_addAll (perm.filterMap _)
  refine artifacts.sameContent.trans (sameContent_addAll ?_)
  exact filterMap_loaded?_reordered h fun target inside =>
    readable target (perm.mem_iff.mpr inside)

end GraphData

namespace Store

theorem decode_of_readBytes {depth : Nat} {bytes : Bytes} {document : Json.Value}
    (filled : isEmptyDocument bytes = false)
    (holds : (Json.readBytes depth bytes).toOption = some document) (name : Text) :
    decode depth name bytes = .ok document := by
  rw [decode, filled]
  cases read : Json.readBytes depth bytes with
  | error e => simp [read, Except.toOption] at holds
  | ok other => simpa [read, Except.toOption] using holds

theorem reordered_edit {f : List Text → Bytes → Bytes} {store : Store}
    (keeps : ∀ place content name,
      decode store.depth name (f place content) = decode store.depth name content ∨
      ∃ document more, decode store.depth name content = .ok document ∧
        decode store.depth name (f place content) = .ok more ∧ Json.Reordered document more)
    (disk : Disk) : store.Reordered disk (disk.edit f) := by
  intro name
  have failing (e : StoreError) (here : store.read disk name = .error e)
      (there : store.read (disk.edit f) name = .error e) :
      store.readJson (disk.edit f) name = store.readJson disk name := by
    rw [readJson, readJson, here, there]
  cases located : store.locate name with
  | error e => exact .inl (failing e (by rw [read, located]; rfl) (by rw [read, located]; rfl))
  | ok path =>
    have here := read_of_locate located disk
    have there := read_of_locate located (disk.edit f)
    rw [Disk.read_edit] at there
    rw [Disk.read] at here
    cases found : disk.find path with
    | error e => exact .inl (failing _ (by rw [here, found]; rfl) (by rw [there, found]; rfl))
    | ok target =>
      obtain ⟨place, node⟩ := target
      rw [found] at here there
      simp only [Bind.bind, Except.bind] at here there
      cases may : (disk.rights place).read with
      | false =>
        rw [may] at here there
        exact .inl (failing _ here there)
      | true =>
        rw [may] at here there
        cases node with
        | file content =>
          rw [readJson_of_read here, readJson_of_read there]
          exact keeps place content name
        | dir entries => exact .inl (failing _ here there)
        | link target => exact .inl (failing _ here there)

end Store

namespace Context

theorem store_edit (f : List Text → Bytes → Bytes) (limits : Limits) (disk : Disk)
    (context : Context) : context.store limits (disk.edit f) = context.store limits disk := rfl

/-- The report stays the same whatever order the source units of the configuration, and
the definitions and references of the artifacts, are brought into. -/
theorem report_reordered {limits : Limits} {disk : Disk} {context : Context} {store : Store}
    {log : Log} {report : Report} (edit : List Text → Bytes → Bytes)
    (located : context.store limits disk = .ok store)
    (tree : Inventory.SameSources disk (disk.edit edit) limits.dirs context.treeRoot.text)
    (documents : store.Reordered disk (disk.edit edit))
    (h : Logged.outcome (context.report limits disk) log = .ok report) :
    Logged.outcome (context.report limits (disk.edit edit)) log = .ok report := by
  obtain ⟨files, found, data, built, atStore, loading, summed⟩ := outcome_report_eq_ok_iff.mp h
  obtain rfl : store = found := eq_of_eq_ok located atStore
  obtain ⟨config, rules, read, planned, loading⟩ := outcome_graphData_eq_ok_iff.mp loading
  obtain ⟨other, readThere, units⟩ := TreeConfig.read_reordered documents read
  obtain ⟨others, plannedThere⟩ := TreeConfig.exists_plan_of_perm units planned
  have targets : (rules.flatMap Rule.artifacts).Perm (others.flatMap Rule.artifacts) := by
    refine (TreeConfig.perm_plan planned).trans (.trans ?_ (TreeConfig.perm_plan plannedThere).symm)
    exact units.map fun unit => (unit.graphTarget, unit)
  obtain ⟨more, loadingThere, same⟩ := GraphData.load_reordered documents targets loading []
  refine outcome_report_eq_ok_iff.mpr ⟨files, store, more, ?_, located, ?_, ?_⟩
  · rw [Inventory.build_edit edit tree]
    exact built
  · exact outcome_graphData_eq_ok_iff.mpr ⟨other, others, readThere, plannedThere, loadingThere⟩
  · rw [← same.foldInto]
    exact summed

end Context

section TwoUnits

open Json (Value)

def unitDocument (name type : Text) : Value := .obj [("Name", .str name), ("Type", .str type)]

def treeDocument (units : List Value) : Value := .obj [("SourceUnits", .arr units)]

def defDocument (path file : Text) : Value := .obj [("Path", .str path), ("File", .str file)]

def refDocument (unit path file : Text) : Value :=
  .obj [("DefUnit", .str unit), ("DefPath", .str path), ("File", .str file)]

def artifactDocument (defs refs : List Value) : Value :=
  .obj [("Defs", .arr defs), ("Refs", .arr refs)]

def documentBytes (document : Value) : Bytes := Text.toUtf8 (Json.write Json.compact 0 document)

def sourceBytes : Bytes := Text.toUtf8 "f\ng\n// h\nh\nf\ng\n"

def twoUnitDisk (tree first second : Value) : Disk where
  top := .dir [("main.go", .file sourceBytes),
    ("config.json", .file (documentBytes tree)),
    ("a", .dir [("go.graph.json", .file (documentBytes first))]),
    ("b", .dir [("go.graph.json", .file (documentBytes second))])]
  workDir := []
  home := "/"

def twoUnitContext : Context where
  repo := { rootDir := "/", commit := [] }
  settings := { root := ⟨.root, []⟩, buildDataDir := "/" }

def twoUnitStore : Store := ⟨⟨.root, []⟩, 970⟩

def twoUnitFiles : Inventory := [{ path := "main.go", language := "Go", loc := 5 }]

theorem liesAt_twoUnitDisk (tree first second : Value) :
    (twoUnitDisk tree first second).LiesAt [] (twoUnitDisk tree first second).top ∧
      (twoUnitDisk tree first second).LiesAt ["main.go"] (.file sourceBytes) :=
  ⟨⟨rfl, rfl, by decide, rfl, rfl⟩, ⟨rfl, rfl, by decide, rfl, rfl⟩⟩

def twoUnitStops : List Stop :=
  [{ names := ["config.json"] }, { names := ["main.go"] }, { names := ["a", "go.graph.json"] },
    { names := ["b", "go.graph.json"] }]

theorem stops_twoUnitDisk (tree first second : Value) :
    (twoUnitDisk tree first second).stops (twoUnitDisk tree first second).canList 970 []
      (twoUnitDisk tree first second).top = twoUnitStops := by
  have top : (twoUnitDisk tree first second).canList [] = true :=
    Disk.LiesAt.canList ⟨rfl, rfl, by decide, rfl, rfl⟩
  have a : (twoUnitDisk tree first second).canList ["a"] = true :=
    Disk.LiesAt.canList ⟨rfl, rfl, by decide, rfl, rfl⟩
  have b : (twoUnitDisk tree first second).canList ["b"] = true :=
    Disk.LiesAt.canList ⟨rfl, rfl, by decide, rfl, rfl⟩
  have inner : Disk.listed [("go.graph.json", .file)] = [{ names := ["go.graph.json"] }] := by
    rw [Disk.listed, Disk.byName_eq _ (.refl _) (by decide)]
    rfl
  have outer : Disk.listed [("main.go", .file), ("config.json", .file),
      ("a", .tree [{ names := ["go.graph.json"] }]),
      ("b", .tree [{ names := ["go.graph.json"] }])] = twoUnitStops := by
    rw [Disk.listed, Disk.byName_eq [("a", .tree [{ names := ["go.graph.json"] }]),
      ("b", .tree [{ names := ["go.graph.json"] }]), ("config.json", .file), ("main.go", .file)]
      (by decide) (by decide)]
    rfl
  have visible : Disk.isHidden "a" = false ∧ Disk.isHidden "b" = false := by decide
  simp only [twoUnitDisk] at top a b ⊢
  simp only [Disk.stops, Disk.branches, List.nil_append, top, a, b, visible, if_true,
    Bool.false_eq_true, if_false, inner, outer]

theorem build_twoUnitDisk (tree first second : Value) :
    Logged.outcome (Inventory.build (twoUnitDisk tree first second) 970 "/") [] =
      .ok twoUnitFiles := by
  obtain ⟨top, main⟩ := liesAt_twoUnitDisk tree first second
  have walk := congrArg (List.filter Inventory.counts) (stops_twoUnitDisk tree first second)
  have found : Inventory.FoundAt (twoUnitDisk tree first second) [] ["main.go"]
      { path := "main.go", language := "Go", loc := 5 } :=
    Inventory.foundAt_of_liesAt main rfl rfl (by decide +kernel)
  exact Inventory.outcome_build_of_found top rfl rfl walk (.cons found .nil) []

theorem sameSources_twoUnitDisk {f : List Text → Bytes → Bytes} (tree first second : Value)
    (keeps : ∀ place, f place sourceBytes = sourceBytes) :
    Inventory.SameSources (twoUnitDisk tree first second) ((twoUnitDisk tree first second).edit f)
      970 "/" := by
  obtain ⟨top, main⟩ := liesAt_twoUnitDisk tree first second
  have paths : Inventory.sourcePaths (twoUnitDisk tree first second) 970 (Path.ofPlace []) =
      [Path.ofPlace ["main.go"]] := by
    have stops := stops_twoUnitDisk tree first second
    unfold Inventory.sourcePaths
    simp only [Path.ofPlace, Node.at?, Option.getD_some, stops]
    rfl
  intro root located path inside
  obtain rfl := eq_of_eq_ok located (top.locate rfl)
  rw [paths, List.mem_singleton] at inside
  rw [inside, Disk.read_edit, Disk.read, main.find]
  exact congrArg Except.ok (keeps _)

variable {tree first second : Value}

theorem read_twoUnitDisk {config : TreeConfig} (first second : Value)
    (holds : ((Store.decode 970 TreeConfig.fileName (documentBytes tree)).toOption.bind
      fun document => (TreeConfig.ofDocument document).toOption) = some config) :
    TreeConfig.read (twoUnitDisk tree first second) twoUnitStore = .ok config := by
  have located : twoUnitStore.locate TreeConfig.fileName = .ok ⟨.root, ["config.json"]⟩ := rfl
  exact TreeConfig.read_of_bytes (Store.read_of_walk located rfl rfl rfl (by decide) rfl rfl) holds

theorem findFirst_twoUnitDisk {artifact : Artifact} (tree second : Value)
    (holds : Artifact.ofBytes? 970 "a/go.graph.json" (documentBytes first) = some artifact) :
    findArtifact (twoUnitDisk tree first second) twoUnitStore "a/go.graph.json" =
      .ok (.artifact artifact) := by
  have located : twoUnitStore.locate "a/go.graph.json" = .ok ⟨.root, ["a", "go.graph.json"]⟩ := rfl
  exact findArtifact_of_bytes (Store.read_of_walk located rfl rfl rfl (by decide) rfl rfl) holds

theorem findSecond_twoUnitDisk {artifact : Artifact} (tree first : Value)
    (holds : Artifact.ofBytes? 970 "b/go.graph.json" (documentBytes second) = some artifact) :
    findArtifact (twoUnitDisk tree first second) twoUnitStore "b/go.graph.json" =
      .ok (.artifact artifact) := by
  have located : twoUnitStore.locate "b/go.graph.json" = .ok ⟨.root, ["b", "go.graph.json"]⟩ := rfl
  exact findArtifact_of_bytes (Store.read_of_walk located rfl rfl rfl (by decide) rfl rfl) holds

theorem report_twoUnitDisk {config : TreeConfig} {rules : List Rule} {report : Report}
    (units : List (SourceUnit × Artifact))
    (read : TreeConfig.read (twoUnitDisk tree first second) twoUnitStore = .ok config)
    (planned : config.plan [] = .ok rules)
    (found : List.Forall₂ (fun target unit => target.2 = unit.1 ∧
      findArtifact (twoUnitDisk tree first second) twoUnitStore target.1 = .ok (.artifact unit.2))
        (rules.flatMap Rule.artifacts) units)
    (summed : Context.summary ((GraphData.addAll ⟨[], []⟩ units).foldInto twoUnitFiles) =
      .ok report) :
    Logged.outcome (twoUnitContext.report {} (twoUnitDisk tree first second)) [] = .ok report := by
  have loading : Logged.outcome (Context.graphData (twoUnitDisk tree first second) twoUnitStore [])
      [] = .ok (GraphData.addAll ⟨[], []⟩ units) :=
    Context.outcome_graphData_eq_ok_iff.mpr ⟨config, rules, read, planned,
      GraphData.outcome_load_of_found found []⟩
  exact Context.outcome_report_eq_ok_iff.mpr ⟨twoUnitFiles, twoUnitStore, _,
    build_twoUnitDisk tree first second, rfl, loading, summed⟩

def shuffledUnits : List Value := [unitDocument "a" "go", unitDocument "b" "go"]

def shuffledDefs : List Value := [defDocument "f" "main.go", defDocument "g" "main.go"]

def shuffledRefs : List Value :=
  [refDocument "b" "h" "main.go", refDocument "b" "f" "main.go", refDocument "" "g" "main.go"]

def shuffledDisk : Disk :=
  twoUnitDisk (treeDocument shuffledUnits) (artifactDocument shuffledDefs shuffledRefs)
    (artifactDocument [defDocument "h" "main.go"] [])

def shuffle (_ : List Text) (content : Bytes) : Bytes :=
  if content = documentBytes (treeDocument shuffledUnits) then
    documentBytes (treeDocument shuffledUnits.reverse)
  else if content = documentBytes (artifactDocument shuffledDefs shuffledRefs) then
    documentBytes (artifactDocument shuffledDefs.reverse shuffledRefs.reverse)
  else content

theorem reordered_shuffledDisk :
    twoUnitStore.Reordered shuffledDisk (shuffledDisk.edit shuffle) := by
  refine Store.reordered_edit (fun place content name => ?_) shuffledDisk
  unfold shuffle
  split
  · next here =>
    subst here
    refine .inr ⟨treeDocument shuffledUnits, treeDocument shuffledUnits.reverse,
      Store.decode_of_readBytes (by decide +kernel) (by decide +kernel) name,
      Store.decode_of_readBytes (by decide +kernel) (by decide +kernel) name, ?_⟩
    exact .fields (.cons ⟨rfl, .items (by decide) shuffledUnits.reverse_perm.symm⟩ .nil)
  · split
    · next here =>
      subst here
      refine .inr ⟨artifactDocument shuffledDefs shuffledRefs,
        artifactDocument shuffledDefs.reverse shuffledRefs.reverse,
        Store.decode_of_readBytes (by decide +kernel) (by decide +kernel) name,
        Store.decode_of_readBytes (by decide +kernel) (by decide +kernel) name, ?_⟩
      exact .fields (.cons ⟨rfl, .items (by decide) shuffledDefs.reverse_perm.symm⟩
        (.cons ⟨rfl, .items (by decide) shuffledRefs.reverse_perm.symm⟩ .nil))
    · exact .inl rfl

def shuffledConfig : TreeConfig := ⟨[⟨"a", "go", [], []⟩, ⟨"b", "go", [], []⟩]⟩

def shuffledFirst : Artifact :=
  ⟨[⟨[], [], [], "f", [], [], "main.go", 0, 0⟩, ⟨[], [], [], "g", [], [], "main.go", 0, 0⟩],
    [⟨[], [], "b", "h", [], [], [], "main.go", 0, 0⟩,
      ⟨[], [], "b", "f", [], [], [], "main.go", 0, 0⟩,
      ⟨[], [], [], "g", [], [], [], "main.go", 0, 0⟩]⟩

def shuffledSecond : Artifact := ⟨[⟨[], [], [], "h", [], [], "main.go", 0, 0⟩], []⟩

def shuffledReport : Report :=
  [("Go", ⟨.ofQuotient false 1 1, .ofQuotient false 2 3, .ofQuotient false 6 5, []⟩)]

theorem report_shuffledDisk :
    Logged.outcome (twoUnitContext.report {} shuffledDisk) [] = .ok shuffledReport := by
  have read : TreeConfig.read shuffledDisk twoUnitStore = .ok shuffledConfig :=
    read_twoUnitDisk _ _ (by decide +kernel)
  have first : findArtifact shuffledDisk twoUnitStore "a/go.graph.json" =
      .ok (.artifact shuffledFirst) := findFirst_twoUnitDisk _ _ (by decide +kernel)
  have second : findArtifact shuffledDisk twoUnitStore "b/go.graph.json" =
      .ok (.artifact shuffledSecond) := findSecond_twoUnitDisk _ _ (by decide +kernel)
  exact report_twoUnitDisk
    [(⟨"a", "go", [], []⟩, shuffledFirst), (⟨"b", "go", [], []⟩, shuffledSecond)] read rfl
    (.cons ⟨rfl, first⟩ (.cons ⟨rfl, second⟩ .nil)) (by decide +kernel)

/-- The report stays the same when the units and what the first one holds are turned around. -/
theorem report_shuffled :
    twoUnitContext.store {} shuffledDisk = .ok twoUnitStore ∧
      Inventory.SameSources shuffledDisk (shuffledDisk.edit shuffle) 970 "/" ∧
      twoUnitStore.Reordered shuffledDisk (shuffledDisk.edit shuffle) ∧
      Logged.outcome (twoUnitContext.report {} shuffledDisk) [] = .ok shuffledReport ∧
      Logged.outcome (twoUnitContext.report {} (shuffledDisk.edit shuffle)) [] =
        .ok shuffledReport := by
  have tree : Inventory.SameSources shuffledDisk (shuffledDisk.edit shuffle) 970 "/" :=
    have source : shuffle [] sourceBytes = sourceBytes := by decide +kernel
    sameSources_twoUnitDisk _ _ _ fun _ => source
  have located : twoUnitContext.store {} shuffledDisk = .ok twoUnitStore := rfl
  exact ⟨located, tree, reordered_shuffledDisk, report_shuffledDisk,
    Context.report_reordered shuffle located tree reordered_shuffledDisk report_shuffledDisk⟩

end TwoUnits
end IndexCoverage
