import IndexCoverage.Json.Writer
import IndexCoverage.Proofs.Coverage.Counting
import IndexCoverage.Proofs.Coverage.Steps
import IndexCoverage.Proofs.Disk.Walk
import IndexCoverage.Proofs.Json.Nesting
import IndexCoverage.Proofs.Plan.Targets

/-! Grouping units changes nothing but the order of loading. The same artifacts are
loaded, so that the same report comes out; if one cannot be read, no report does. Which
failure is met first may differ. -/

namespace IndexCoverage

/-- The first artifact that cannot be read is one that nests too far. -/
def StopsAtDepth (disk : Disk) (store : Store) (rules : List Rule) : Prop :=
  ∃ bracket, (rules.flatMap Rule.artifacts).findSome? (loadCause? disk store) =
    some (.fault (.tooDeep bracket))

namespace GraphData

variable {disk : Disk} {store : Store} {rules others : List Rule}

theorem alike_addAll {units more : List (SourceUnit × Artifact)} (h : units.Perm more) :
    (addAll ⟨[], []⟩ units).Alike (addAll ⟨[], []⟩ more) where
  keys key := by simp only [mem_keys_addAll, h.mem_iff]
  artifacts := by
    simp only [artifacts_addAll, List.nil_append]
    exact h.map _

theorem load_perm (h : (rules.flatMap Rule.artifacts).Perm (others.flatMap Rule.artifacts))
    (log : Log) :
    (∃ data other, Logged.outcome (load disk store rules) log = .ok data ∧
      Logged.outcome (load disk store others) log = .ok other ∧ data.Alike other) ∨
    ∃ failure another, Logged.outcome (load disk store rules) log = .error failure ∧
      Logged.outcome (load disk store others) log = .error another := by
  have together : (rules.flatMap Rule.artifacts).findSome? (loadFailure? disk store) = none ↔
      (others.flatMap Rule.artifacts).findSome? (loadFailure? disk store) = none := by
    simp only [List.findSome?_eq_none_iff, h.mem_iff]
  rw [outcome_load, outcome_load]
  cases first : (rules.flatMap Rule.artifacts).findSome? (loadFailure? disk store) with
  | none =>
    rw [together.mp first]
    exact .inl ⟨_, _, rfl, rfl, alike_addAll (h.filterMap _)⟩
  | some failure =>
    cases second : (others.flatMap Rule.artifacts).findSome? (loadFailure? disk store) with
    | none => simp [together.mpr second] at first
    | some another => exact .inr ⟨failure, another, rfl, rfl⟩

theorem graphData_iff {failure : Failure} {log : Log}
    (h : Logged.outcome (load disk store rules) log = .error failure) :
    (∃ e, failure = .graphData e) ↔ ¬StopsAtDepth disk store rules := by
  have found : (rules.flatMap Rule.artifacts).findSome? (loadFailure? disk store) =
      some failure := by
    rw [outcome_load] at h
    split at h
    · next other found => rw [found, Except.error.inj h]
    · simp at h
  obtain ⟨before, target, after, all, atTarget, none⟩ := List.findSome?_eq_some_iff.mp found
  obtain ⟨cause, causeAt, rfl⟩ := Option.map_eq_some_iff.mp atTarget
  have first : (rules.flatMap Rule.artifacts).findSome? (loadCause? disk store) = some cause :=
    List.findSome?_eq_some_iff.mpr ⟨before, target, after, all, causeAt,
      fun other inside => Option.map_eq_none_iff.mp (none other inside)⟩
  rw [StopsAtDepth, first]
  unfold loadFailure
  split <;> simp_all

end GraphData

theorem TreeConfig.read_of_bytes {disk : Disk} {store : Store} {bytes : Bytes}
    {config : TreeConfig} (read : store.read disk fileName = .ok bytes)
    (holds : ((Store.decode store.depth fileName bytes).toOption.bind fun document =>
      (ofDocument document).toOption) = some config) :
    TreeConfig.read disk store = .ok config := by
  rw [TreeConfig.read, Store.readJson_of_read read]
  obtain ⟨document, decoded, found⟩ := Option.bind_eq_some_iff.mp holds
  cases result : Store.decode store.depth fileName bytes with
  | error e => simp [result, Except.toOption] at decoded
  | ok other => cases made : ofDocument other <;> simp_all [Except.toOption]

namespace Context

def ungrouped (context : Context) : Context :=
  { context with settings := { context.settings with multiUnitTypes := [] } }

theorem graphData_grouped_iff {disk : Disk} {store : Store} {config : TreeConfig}
    {grouped : List Text} {rules : List Rule} (read : TreeConfig.read disk store = .ok config)
    (planned : config.plan grouped = .ok rules) (files : Inventory) (log : Log) (report : Report) :
    (Logged.outcome (graphData disk store grouped) log).bind
        (fun data => summary (data.foldInto files)) = .ok report ↔
      (Logged.outcome (graphData disk store []) log).bind
        (fun data => summary (data.foldInto files)) = .ok report := by
  obtain ⟨single, plan⟩ := config.exists_plan_nil
  have perm := (TreeConfig.perm_plan planned).trans (TreeConfig.perm_plan plan).symm
  rw [outcome_graphData_of_plan read planned, outcome_graphData_of_plan read plan]
  rcases GraphData.load_perm perm log with
    ⟨data, other, first, second, alike⟩ | ⟨failure, another, first, second⟩
  · rw [first, second]
    change summary (data.foldInto files) = _ ↔ summary (other.foldInto files) = _
    rw [alike.foldInto]
  · rw [first, second]
    change Except.error failure = _ ↔ Except.error another = _
    simp

end Context

/-- Grouping is transparent: if the groups can be planned, the report with groups is the
report without, and what is loaded is the same up to order. A loading that fails under
one plan fails under the other; each says which artifact is at fault exactly unless the
first artifact that cannot be read under its plan nests too far. -/
theorem grouping_transparent {disk : Disk} {store : Store} {config : TreeConfig}
    {grouped : List Text} {rules : List Rule} (planned : config.plan grouped = .ok rules) :
    (∀ (limits : Limits) (context : Context) (log : Log),
      context.settings.multiUnitTypes = grouped →
      context.store limits disk = .ok store → TreeConfig.read disk store = .ok config →
      ∀ report, Logged.outcome (context.report limits disk) log = .ok report ↔
        Logged.outcome (context.ungrouped.report limits disk) log = .ok report) ∧
    ∃ single, config.plan [] = .ok single ∧ ∀ log,
      (∃ data other, Logged.outcome (GraphData.load disk store rules) log = .ok data ∧
          Logged.outcome (GraphData.load disk store single) log = .ok other ∧
          data.Alike other) ∨
        ∃ failure another,
          Logged.outcome (GraphData.load disk store rules) log = .error failure ∧
          Logged.outcome (GraphData.load disk store single) log = .error another ∧
          ((∃ e, failure = .graphData e) ↔ ¬StopsAtDepth disk store rules) ∧
          ((∃ e, another = .graphData e) ↔ ¬StopsAtDepth disk store single) := by
  constructor
  · rintro limits context log rfl located read report
    rw [Context.outcome_report, Context.outcome_report]
    change _ ↔ (Except.bind
      (Logged.outcome (Inventory.build disk limits.dirs context.treeRoot.text) log) _ = _)
    cases Logged.outcome (Inventory.build disk limits.dirs context.treeRoot.text) log with
    | error failure => exact Iff.rfl
    | ok files =>
      change _ ↔ (Except.bind (context.store limits disk) _ = _)
      rw [located]
      exact Context.graphData_grouped_iff read planned files _ report
  · obtain ⟨single, plan⟩ := config.exists_plan_nil
    have perm := (TreeConfig.perm_plan planned).trans (TreeConfig.perm_plan plan).symm
    refine ⟨single, plan, fun log => ?_⟩
    rcases GraphData.load_perm perm log with alike | ⟨failure, another, first, second⟩
    · exact .inl alike
    · exact .inr ⟨failure, another, first, second, GraphData.graphData_iff first,
        GraphData.graphData_iff second⟩

section Tangled

def tangledConfig : TreeConfig := ⟨[⟨"a", "deep", [], []⟩, ⟨"b", "broken", [], []⟩]⟩

def tangledConfigBytes : Bytes :=
  Text.toUtf8 (Json.write Json.compact 0
    (.obj [("SourceUnits", .arr [.obj [("Name", .str "a"), ("Type", .str "deep")],
      .obj [("Name", .str "b"), ("Type", .str "broken")]])]))

def tangledDisk : Disk where
  top := .dir [("config.json", .file tangledConfigBytes),
    ("a", .dir [("deep.graph.json", .file (List.replicate 1000 Json.bracketByte))]),
    ("b", .dir [("broken.graph.json", .file [Json.bracketByte])])]
  workDir := []
  home := "/"

def tangledStore : Store := ⟨⟨.root, []⟩, 970⟩

def tangledContext : Context where
  repo := { rootDir := "/", commit := [] }
  settings := { root := ⟨.root, []⟩, buildDataDir := "/", multiUnitTypes := ["deep"] }

def tangledGrouped : List Rule :=
  [.depResolve "a/deep.depresolve.json" ⟨"a", "deep", [], []⟩,
    .depResolve "b/broken.depresolve.json" ⟨"b", "broken", [], []⟩,
    .graph "b/broken.graph.json" ⟨"b", "broken", [], []⟩,
    .graphs [("a/deep.graph.json", ⟨"a", "deep", [], []⟩)]]

def tangledSingle : List Rule :=
  [.depResolve "a/deep.depresolve.json" ⟨"a", "deep", [], []⟩,
    .graph "a/deep.graph.json" ⟨"a", "deep", [], []⟩,
    .depResolve "b/broken.depresolve.json" ⟨"b", "broken", [], []⟩,
    .graph "b/broken.graph.json" ⟨"b", "broken", [], []⟩]

theorem plan_tangledGrouped : tangledConfig.plan ["deep"] = .ok tangledGrouped := rfl

theorem plan_tangledSingle : tangledConfig.plan [] = .ok tangledSingle := rfl

theorem read_tangledConfig : TreeConfig.read tangledDisk tangledStore = .ok tangledConfig := by
  have located : tangledStore.locate TreeConfig.fileName = .ok ⟨.root, ["config.json"]⟩ := rfl
  have read : tangledStore.read tangledDisk TreeConfig.fileName = .ok tangledConfigBytes :=
    Store.read_of_walk located rfl rfl rfl (by decide) rfl rfl
  exact TreeConfig.read_of_bytes read (by decide +kernel)

theorem loadCause_deep : loadCause? tangledDisk tangledStore
    ("a/deep.graph.json", ⟨"a", "deep", [], []⟩) = some (.fault (.tooDeep .array)) := by
  have located : tangledStore.locate "a/deep.graph.json" =
      .ok ⟨.root, ["a", "deep.graph.json"]⟩ := rfl
  have read : tangledStore.read tangledDisk "a/deep.graph.json" =
      .ok (List.replicate 1000 Json.bracketByte) :=
    Store.read_of_walk located rfl rfl rfl (by decide) rfl rfl
  exact loadCause?_of_decode read (Store.decode_brackets _ (by decide))

theorem loadCause_broken : loadCause? tangledDisk tangledStore
    ("b/broken.graph.json", ⟨"b", "broken", [], []⟩) = some (.fault .json) := by
  have located : tangledStore.locate "b/broken.graph.json" =
      .ok ⟨.root, ["b", "broken.graph.json"]⟩ := rfl
  have read : tangledStore.read tangledDisk "b/broken.graph.json" = .ok [Json.bracketByte] :=
    Store.read_of_walk located rfl rfl rfl (by decide) rfl rfl
  exact loadCause?_of_decode read rfl

/-- The groups can be planned, and both plans fail; one of them at the artifact that
nests too far. -/
theorem grouping_transparent_tangled :
    tangledConfig.plan ["deep"] = .ok tangledGrouped ∧
      (∀ report, Logged.outcome (tangledContext.report {} tangledDisk) [] = .ok report ↔
        Logged.outcome (tangledContext.ungrouped.report {} tangledDisk) [] = .ok report) ∧
      ∃ single, tangledConfig.plan [] = .ok single ∧ ∀ log,
        (∃ data other,
            Logged.outcome (GraphData.load tangledDisk tangledStore tangledGrouped) log = .ok data ∧
            Logged.outcome (GraphData.load tangledDisk tangledStore single) log = .ok other ∧
            data.Alike other) ∨
          ∃ failure another,
            Logged.outcome (GraphData.load tangledDisk tangledStore tangledGrouped) log =
              .error failure ∧
            Logged.outcome (GraphData.load tangledDisk tangledStore single) log = .error another ∧
            ((∃ e, failure = .graphData e) ↔
              ¬StopsAtDepth tangledDisk tangledStore tangledGrouped) ∧
            ((∃ e, another = .graphData e) ↔ ¬StopsAtDepth tangledDisk tangledStore single) :=
  ⟨plan_tangledGrouped,
    (grouping_transparent plan_tangledGrouped).1 {} tangledContext [] rfl rfl read_tangledConfig,
    (grouping_transparent plan_tangledGrouped).2⟩

/-- One and the same configuration fails in one way with groups and in another without. -/
theorem failure_of_grouping_differs :
    tangledConfig.plan ["deep"] = .ok tangledGrouped ∧
      tangledConfig.plan [] = .ok tangledSingle ∧
      Logged.outcome (GraphData.load tangledDisk tangledStore tangledGrouped) [] =
        .error (.graphData ⟨"b/broken.graph.json", "broken", "b", .fault .json⟩) ∧
      Logged.outcome (GraphData.load tangledDisk tangledStore tangledSingle) [] =
        .error (.fault (.tooDeep .array)) := by
  refine ⟨plan_tangledGrouped, plan_tangledSingle, ?_, ?_⟩
  · rw [GraphData.outcome_load]
    simp [tangledGrouped, Rule.artifacts, loadFailure?, loadCause_broken, loadFailure]
  · rw [GraphData.outcome_load]
    simp [tangledSingle, Rule.artifacts, loadFailure?, loadCause_deep, loadFailure]

end Tangled

end IndexCoverage
