/-! How far things may nest in one run. What is read is read by recursion, and how much of
that is left depends on where in the run it is read. -/

namespace IndexCoverage

structure Limits where
  /-- Brackets in a document of the build data. -/
  data : Nat := 970
  /-- Brackets in the body of a request. -/
  body : Nat := 970
  /-- Nodes in a file of settings. -/
  settings : Nat := 480
  /-- Directories on the way to a source file. -/
  dirs : Nat := 970
  deriving DecidableEq

end IndexCoverage
