import IndexCoverage.Coverage.Score

/-! Source files with what was found in them, and when a file counts as covered:
when its definitions and valid references come to more than 0.7 per line. -/

namespace IndexCoverage

structure SourceFile where
  path : Text
  language : Text
  loc : Int
  numRefs : Int := 0
  numRefsValid : Int := 0
  numDefs : Int := 0
  deriving DecidableEq

/-- The double nearest to seven tenths. -/
def coveredThreshold : Binary64 := .ofQuotient false 7 10

def SourceFile.isCovered (file : SourceFile) : Except ScoreError Bool :=
  if file.loc = 0 then .ok false
  else (ratio (file.numDefs + file.numRefsValid) file.loc).map (coveredThreshold.less ·)

end IndexCoverage
