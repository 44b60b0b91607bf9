import IndexCoverage.Disk.Resolve
import IndexCoverage.Repo.Uri
import IndexCoverage.Session

/-! A repository as git shows it: its root directory, its commit, and where it was
cloned from. A repository without an origin, or one whose origin has no canonical
form, is a repository all the same. -/

namespace IndexCoverage

structure Repo where
  rootDir : Text
  commit : Text
  cloneUrl : Text := []
  uri : Text := []
  deriving DecidableEq

namespace Repo

def asked (place : Path) (query : Git.Query) : Action Text := do
  match ← Action.ask place query with
  | .ok text => return text.trim
  | .error e => throw (.repo (.command place.text e))

def originOf (place : Path) : Action Text := do
  match ← Action.ask place .origin with
  | .ok text => return text.trim
  | .error (.exit _ _) => return []
  | .error e => throw (.command e)

def uriOf (rootDir cloneUrl : Text) : Action Text := do
  if cloneUrl.isEmpty then return []
  match canonicalUri cloneUrl with
  | .ok uri => return uri
  | .error e =>
    Action.note "repo" .warning
      (Text.join ["Ignoring origin URL for ", rootDir, ": ", e.message])
    return []

def ofDir (place : Path) : Action Repo := do
  let rootDir ← asked place .topLevel
  let commit ← asked place .head
  let cloneUrl ← originOf place
  let uri ← uriOf rootDir cloneUrl
  return { rootDir, commit, cloneUrl, uri }

def containing (path : Text) : Action Repo := do
  let place ← Action.ofPath fun disk => disk.locate path
  if !(← Action.ofPath fun disk => disk.isDir place) then
    throw (.repo (.notDirectory path))
  if !((← get).disk.rights place.parts).enter then
    throw (.repo (.command place.text (.closed place.text)))
  ofDir place

end Repo
end IndexCoverage
