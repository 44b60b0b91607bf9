import IndexCoverage.Repo.Basic

/-! Opening repositories, with or without a memory. With one, the first result
for a place is the result from then on: a repository, or why there is none. -/

namespace IndexCoverage

structure Opener where
  cache : Bool := true
  results : List (Path × Except RepoError Repo) := []

namespace Opener

/-- The opener with the first result for a place. Failures that are not about the
repository are not kept. -/
def remember (opener : Opener) (place : Path) (result : Except Failure Repo) : Opener :=
  match result with
  | .ok repo => { opener with results := (place, .ok repo) :: opener.results }
  | .error (.repo e) => { opener with results := (place, .error e) :: opener.results }
  | .error _ => opener

def openPlace (opener : Opener) (place : Path) : StateM Session (Except Failure Repo × Opener) := do
  if opener.cache then
    match opener.results.lookup place with
    | some result => return (result.mapError .repo, opener)
    | none =>
      let result ← (Repo.containing place.text).run
      return (result, opener.remember place result)
  else
    return (← (Repo.containing place.text).run, opener)

def openPath (opener : Opener) (path : Text) : StateM Session (Except Failure Repo × Opener) := do
  match (← get).disk.locate path with
  | .ok place => opener.openPlace place
  | .error e => return (.error (.path e), opener)

end Opener
end IndexCoverage
