import IndexCoverage.Coverage.Context
import IndexCoverage.Repo.Opener

/-! Runs on request. A runner keeps the opener of repositories from run to run. If
it is not given one, it makes one when it first knows settings, with a cache if
these ask for it; until then repositories are opened without any. -/

namespace IndexCoverage

/-- A path in a repository; a commit and a directory of build data, where these are
not to be taken from the repository and its settings. -/
structure Request where
  path : Text
  commit : Text := []
  buildDataDir : Text := []
  deriving DecidableEq

structure Runner where
  opener : Option Opener := none

namespace Runner

def start (path : Text) : Action (Path × Settings) := do
  let place ← Action.ofPath fun disk => disk.locate path
  if !(← Action.ofPath fun disk => disk.exists? place) then throw (.noRepository path)
  let session ← get
  return (place, ← Action.ofExcept (Settings.load session.disk session.limits.settings place))

def rootSettings (repo : Repo) (settings : Settings) : Action Settings := do
  if repo.rootDir.isEmpty then return settings
  let root ← Action.ofPath fun disk => disk.resolve (Path.ofText repo.rootDir)
  if root = settings.root then return settings
  let session ← get
  Action.ofExcept
    (Settings.load session.disk session.limits.settings (Path.ofText repo.rootDir))

def contextOf (request : Request) (repo : Repo) (settings : Settings) : Context where
  repo := if request.commit.isEmpty then repo else { repo with commit := request.commit }
  settings :=
    if request.buildDataDir.isEmpty then settings
    else { settings with buildDataDir := request.buildDataDir }

def context (runner : Runner) (request : Request) :
    StateM Session (Except Failure Context × Runner) := do
  match ← (start request.path).run with
  | .error e => return (.error e, runner)
  | .ok (place, settings) =>
    let (found, opener) ← (runner.opener.getD { cache := false }).openPath place.text
    let runner : Runner := if runner.opener.isSome then ⟨some opener⟩ else runner
    match found with
    | .error e => return (.error e, runner)
    | .ok repo =>
      match ← (rootSettings repo settings).run with
      | .error e => return (.error e, runner)
      | .ok settings =>
        let runner : Runner := ⟨some (runner.opener.getD { cache := settings.cacheRepo })⟩
        let context := contextOf request repo settings
        let message := Text.join ["Effective configuration: ", context.settings.shown]
        let _ ← (Action.note "orchestrator" .debug message).run
        return (.ok context, runner)

def compute (context : Context) : Action Report := do
  let repo := context.repo
  Action.note "orchestrator" .info (Text.join ["Computing coverage for ",
    if repo.uri.isEmpty then repo.rootDir else repo.uri, " at ",
    if repo.commit.isEmpty then "(no commit)" else repo.commit])
  let session ← get
  let report ← Action.ofLogged (context.report session.limits session.disk)
  Action.note "orchestrator" .debug
    (Text.join ["Computed coverage for ", Text.ofNat report.length, " languages"])
  return report

def run (runner : Runner) (request : Request) :
    StateM Session (Except Failure Report × Runner) := do
  match ← runner.context request with
  | (.error e, runner) => return (.error e, runner)
  | (.ok context, runner) => return (← (compute context).run, runner)

end Runner
end IndexCoverage
