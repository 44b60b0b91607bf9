import IndexCoverage.Coverage.Summary
import IndexCoverage.Graph.Load
import IndexCoverage.Inventory
import IndexCoverage.Limits
import IndexCoverage.Repo.Basic
import IndexCoverage.Settings

/-! The coverage of a tree: its inventory, with what the build data of a commit
says about its files, summed up by language. -/

namespace IndexCoverage

/-- What one computation needs. The tree is that of the repository unless another
one is named. -/
structure Context where
  repo : Repo
  settings : Settings
  root? : Option Path := none

namespace Context

def treeRoot (context : Context) : Path :=
  context.root?.getD (Path.ofText context.repo.rootDir)

def note (message : Text) : Logged Failure Unit := Logged.note "coverage" .debug message

def store (limits : Limits) (disk : Disk) (context : Context) : Except Failure Store :=
  (Store.ofCommit disk limits.data context.repo.rootDir context.repo.commit
    context.settings.buildDataDir).mapError .path

def graphData (disk : Disk) (store : Store) (multiUnitTypes : List Text) :
    Logged Failure GraphData := do
  let config ← Logged.ofExcept (TreeConfig.read disk store)
  let rules ← Logged.ofExcept ((config.plan multiUnitTypes).mapError .plan)
  GraphData.load disk store rules

def summary (files : Inventory) : Except Failure Report :=
  files.summarize.mapError fun
    | .overflow => .fault .overflow

def report (limits : Limits) (disk : Disk) (context : Context) : Logged Failure Report := do
  let files ← Inventory.build disk limits.dirs context.treeRoot.text
  let store ← Logged.ofExcept (context.store limits disk)
  note (Text.join ["Reading build data from ", store.shown])
  let data ← graphData disk store context.settings.multiUnitTypes
  note (Text.join ["Merged ", Text.ofNat data.artifacts.length, " outputs holding ",
    Text.ofNat data.keys.length, " distinct definition keys"])
  Logged.ofExcept (summary (data.foldInto files))

end Context
end IndexCoverage
