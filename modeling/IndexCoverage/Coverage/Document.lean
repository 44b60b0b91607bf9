import IndexCoverage.Coverage.Summary
import IndexCoverage.Json.Value

/-! Coverage as a JSON document. -/

namespace IndexCoverage

def LanguageCoverage.document (coverage : LanguageCoverage) : Json.Value :=
  .obj [
    ("FileScore", .float coverage.fileScore),
    ("RefScore", .float coverage.refScore),
    ("TokDensity", .float coverage.tokDensity),
    ("UncoveredFiles", .arr (coverage.uncoveredFiles.map .str))]

def Report.document (report : Report) : Json.Value :=
  .obj (report.sorted.map fun (language, coverage) => (language, coverage.document))

end IndexCoverage
