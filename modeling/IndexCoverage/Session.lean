import IndexCoverage.Disk.Node
import IndexCoverage.Limits
import IndexCoverage.Log.Record
import IndexCoverage.Repo.Git

/-! The world that a run works in: the files, git, and what has been logged. -/

namespace IndexCoverage

/-- `calls` are the questions put to git so far; `words` is how messages put what
a reader finds wrong. -/
structure Session where
  disk : Disk
  git : Git
  words : Wording
  limits : Limits := {}
  calls : List Git.Call := []
  log : Log := []

/-- A computation in a session, which keeps its changes when it fails. -/
abbrev Action := ExceptT Failure (StateM Session)

namespace Action

def ofPath {α : Type} (find : Disk → Except PathError α) : Action α := do
  match find (← get).disk with
  | .ok found => return found
  | .error e => throw (.path e)

def ofExcept {α : Type} (result : Except Failure α) : Action α :=
  liftM (m := Except Failure) result

def ofLogged {α : Type} (action : Logged Failure α) : Action α :=
  ExceptT.mk fun session =>
    let (result, log) := action.run session.log
    (result, { session with log })

def note (stage : Text) (level : Level) (message : Text) : Action Unit :=
  ofLogged (Logged.note stage level message)

def ask (place : Path) (query : Git.Query) : Action (Except CommandError Text) := do
  let session ← get
  let call : Git.Call := ⟨query, place⟩
  set { session with calls := session.calls ++ [call] }
  return (session.git session.calls call).result query

end Action
end IndexCoverage
