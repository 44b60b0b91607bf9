import IndexCoverage.Coverage.Fold

/-! Per-language coverage: the share of covered files, the share of valid
references, and the definitions and references per line of code. -/

namespace IndexCoverage

structure LanguageCoverage where
  fileScore : Binary64
  refScore : Binary64
  tokDensity : Binary64
  uncoveredFiles : List Text
  deriving DecidableEq

structure Tally where
  numFiles : Int := 0
  numCoveredFiles : Int := 0
  numDefs : Int := 0
  numRefs : Int := 0
  numRefsValid : Int := 0
  loc : Int := 0
  uncoveredFiles : List Text := []

namespace Tally

def add (tally : Tally) (file : SourceFile) : Except ScoreError Tally := do
  let covered ← file.isCovered
  return {
    numFiles := tally.numFiles + 1
    numCoveredFiles := if covered then tally.numCoveredFiles + 1 else tally.numCoveredFiles
    numDefs := tally.numDefs + file.numDefs
    numRefs := tally.numRefs + file.numRefs
    numRefsValid := tally.numRefsValid + file.numRefsValid
    loc := tally.loc + file.loc
    uncoveredFiles :=
      if covered then tally.uncoveredFiles else tally.uncoveredFiles ++ [file.path] }

def coverage (tally : Tally) : Except ScoreError LanguageCoverage := do
  return {
    fileScore := ← score tally.numCoveredFiles tally.numFiles
    refScore := ← score tally.numRefsValid tally.numRefs
    tokDensity := ← score (tally.numDefs + tally.numRefs) tally.loc
    uncoveredFiles := tally.uncoveredFiles }

end Tally

abbrev Report := List (Text × LanguageCoverage)

def addFile (file : SourceFile) : List (Text × Tally) → Except ScoreError (List (Text × Tally))
  | [] => return [(file.language, ← Tally.add {} file)]
  | (language, tally) :: rest => do
    if language = file.language then
      return (language, ← tally.add file) :: rest
    else
      return (language, tally) :: (← addFile file rest)

def Inventory.summarize (files : Inventory) : Except ScoreError Report := do
  let tallies ← files.foldlM (fun tallies file => addFile file tallies) []
  tallies.mapM fun (language, tally) => return (language, ← tally.coverage)

def Report.sorted (report : Report) : Report :=
  report.mergeSort fun a b => Text.atMost a.1 b.1

end IndexCoverage
