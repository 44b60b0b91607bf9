import IndexCoverage.Coverage.Context
import IndexCoverage.Proofs.Graph.Loading
import IndexCoverage.Proofs.Log.Blind

/-! The steps of one computation. There is a report exactly if each step succeeds: the
inventory, the store, the configuration, the plan, the loading and the summary. -/

namespace IndexCoverage
namespace Context

theorem outcome_graphData (disk : Disk) (store : Store) (grouped : List Text) (log : Log) :
    Logged.outcome (graphData disk store grouped) log =
      (TreeConfig.read disk store).bind fun config =>
        ((config.plan grouped).mapError .plan).bind fun rules =>
          Logged.outcome (GraphData.load disk store rules) log := by
  rw [graphData, Logged.outcome_ofExcept_bind]
  congr 1
  funext config
  rw [Logged.outcome_ofExcept_bind]

theorem outcome_graphData_of_plan {disk : Disk} {store : Store} {config : TreeConfig}
    {grouped : List Text} {rules : List Rule} (read : TreeConfig.read disk store = .ok config)
    (planned : config.plan grouped = .ok rules) (log : Log) :
    Logged.outcome (graphData disk store grouped) log =
      Logged.outcome (GraphData.load disk store rules) log := by
  rw [outcome_graphData, read]
  change ((config.plan grouped).mapError Failure.plan).bind _ = _
  rw [planned]
  rfl

theorem outcome_report (limits : Limits) (disk : Disk) (context : Context) (log : Log) :
    Logged.outcome (context.report limits disk) log =
      (Logged.outcome (Inventory.build disk limits.dirs context.treeRoot.text) log).bind
        fun files => (context.store limits disk).bind fun store =>
          let log := Logged.logAfter (Inventory.build disk limits.dirs context.treeRoot.text) log ++
            [⟨"coverage", .debug, Text.join ["Reading build data from ", store.shown]⟩]
          (Logged.outcome (graphData disk store context.settings.multiUnitTypes) log).bind
            fun data => summary (data.foldInto files) := by
  rw [report, Logged.outcome_bind]
  congr 1
  funext files
  rw [Logged.outcome_ofExcept_bind]
  congr 1
  funext store
  rw [note, Logged.outcome_note_bind, Logged.outcome_bind]
  rfl

/-- What a store holds is known exactly if the store is configured, planned and loaded. -/
theorem outcome_graphData_eq_ok_iff {disk : Disk} {store : Store} {grouped : List Text} {log : Log}
    {data : GraphData} :
    Logged.outcome (graphData disk store grouped) log = .ok data ↔
      ∃ config rules, TreeConfig.read disk store = .ok config ∧
        config.plan grouped = .ok rules ∧
        Logged.outcome (GraphData.load disk store rules) [] = .ok data := by
  simp only [outcome_graphData, bind_eq_ok_iff, mapError_eq_ok_iff, GraphData.outcome_load]
  simp only [exists_and_left]

theorem outcome_report_eq_ok_iff {limits : Limits} {disk : Disk} {context : Context} {log : Log}
    {report : Report} :
    Logged.outcome (context.report limits disk) log = .ok report ↔
      ∃ files store data,
        Logged.outcome (Inventory.build disk limits.dirs context.treeRoot.text) log = .ok files ∧
        context.store limits disk = .ok store ∧
        Logged.outcome (graphData disk store context.settings.multiUnitTypes) [] = .ok data ∧
        summary (data.foldInto files) = .ok report := by
  simp only [outcome_report, bind_eq_ok_iff, outcome_graphData_eq_ok_iff, exists_and_left]

theorem blind_report (limits : Limits) (disk : Disk) (context : Context) :
    Logged.Blind (context.report limits disk) := by
  intro log other
  rw [outcome_report, outcome_report, Inventory.blind_build disk _ _ log other]
  simp only [outcome_graphData, GraphData.outcome_load]

end Context
end IndexCoverage
