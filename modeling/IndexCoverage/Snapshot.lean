import IndexCoverage.Log.Output
import IndexCoverage.Repo.WorkTree
import IndexCoverage.Runner

/-! The files of the system as a disk, as far as a run needs them: the way to each
path, the working tree with its source files, and the build data. -/

namespace IndexCoverage.Snapshot

/-- The nodes that have been taken so far, and the places among them that the system
does not let us read. -/
structure Taken where
  top : Node := .dir []
  closed : List (List Text) := []

def Taken.disk (taken : Taken) (disk : Disk) : Disk :=
  { disk with
    top := taken.top
    rights := fun place => { read := !taken.closed.contains place } }

abbrev Taking := StateT Taken IO

def put (node : Node) (place : List Text) : Taking Unit :=
  modify fun taken => { taken with top := Node.put node place taken.top }

def close (place : List Text) : Taking Unit :=
  modify fun taken => { taken with closed := place :: taken.closed }

def nameOf (text : Text) : String := String.ofList (text.filterMap fun
  | .char c => some c
  | .lone _ => none)

def pathOf (place : List Text) : String := nameOf (Path.ofPlace place).text

def placeOf (path : String) : List Text := Path.partsOf (Text.ofString path)

/-- No file has this name, so that a link to it leads nowhere. -/
def nowhere : Text := [.char '\x00']

def goalOf (path : String) : IO (Option String) := do
  try return some (← IO.FS.realPath path).toString
  catch _ => return none

def contentOf (place : List Text) : Taking Bytes := do
  match ← (IO.FS.readBinFile (pathOf place)).toBaseIO with
  | .ok content => return content.toList
  | .error _ =>
    close place
    return []

/-- The entries of a directory and all below, and where the links among them lead.
Only files with a name to keep are read. -/
partial def entriesOf (keep : Text → Bool) (place : List Text) :
    StateT (List String) Taking (List (Text × Node)) := do
  let listing : IO (Array IO.FS.DirEntry) := do (← IO.FS.realPath (pathOf place)).readDir
  let found ← match ← listing.toBaseIO with
    | .ok found => pure found
    | .error _ =>
      close place
      pure #[]
  found.toList.mapM fun entry => do
    let name := Text.ofString entry.fileName
    let here := place ++ [name]
    match (← entry.path.symlinkMetadata).type with
    | .dir => return (name, .dir (← entriesOf keep here))
    | .symlink =>
      match ← goalOf (pathOf here) with
      | some goal =>
        modify (goal :: ·)
        return (name, .link (Text.ofString goal))
      | none => return (name, .link nowhere)
    | .file => return (name, .file (← if keep name then contentOf here else pure []))
    | .other => return (name, .file [])

/-- Take what a way of names leads to, and the links on the way; of a directory,
`within` says which files in it are read, if any of it is wanted. -/
partial def take (within : Option (Text → Bool)) (place : List Text) :
    List Text → Taking Unit
  | [] => do
    match (← (← IO.FS.realPath (pathOf place)).metadata).type, within with
    | .dir, none => modify fun taken => { taken with top := Node.makeDir place taken.top }
    | .dir, some keep =>
      let (entries, goals) ← (entriesOf keep place).run []
      put (.dir entries) place
      for goal in goals do take none [] (placeOf goal)
    | _, _ => put (.file (← contentOf place)) place
  | name :: rest => do
    if name = Path.dotDot then take within place.dropLast rest
    else
      let next := place ++ [name]
      match ← goalOf (pathOf next) with
      | none => take none place []
      | some goal =>
        if placeOf goal = next then take within next rest
        else
          put (.link (Text.ofString goal)) next
          take within [] (placeOf goal ++ rest)

def takePath (path : Path) : Taking Unit := take none [] path.parts

def takeTree (keep : Text → Bool) (path : Path) : Taking Unit := take (some keep) [] path.parts

def takeRefs (dir : Path) : Taking Unit := do
  for name in ["HEAD", "config", "packed-refs", "commondir"] do
    takePath (dir.child (Text.ofString name))
  takeTree (fun _ => true) (dir.child "refs")

/-- Take the settings on the way up to the root of the working tree, and what git
keeps there. -/
def takeSettings (disk : Disk) (place : List Text) : Taking Unit := do
  for length in (List.range (place.length + 1)).reverse do
    let root := Path.ofPlace (place.take length)
    takePath (root.child settingsFileName)
    takePath (root.child WorkTree.gitName)
    if let some dir := WorkTree.gitDir? ((← get).disk disk) root.parts then
      takeRefs dir
      for shared in WorkTree.gitDirs ((← get).disk disk) dir do takeRefs shared
      return

def isWanted (name : Text) : Bool :=
  (Source.languageOf? name).isSome || name = settingsFileName

def sessionOf (disk : Disk) (git : Git) : Session := { disk, git, words := Fault.inWords }

def takeRequest (runner : Runner) (request : Request) (disk : Disk) : Taking Git := do
  let here := Path.ofPlace disk.workDir
  if let .ok path := disk.expandHome (Path.ofText request.path) then takePath (here.join path)
  if let .ok path := ((← get).disk disk).locate request.path then
    takeSettings disk path.parts
  let known := (← get).disk disk
  let git := WorkTree.git known
  if let ((.ok context, _), _) := (runner.context request).run (sessionOf known git) then
    takeTree isWanted (here.join context.treeRoot)
    if let .ok store := context.store {} known then
      takeTree (fun _ => true) (here.join store.root)
  return git

def homesOf : IO (List (Text × Text)) := do
  let listed ← try IO.FS.readFile "/etc/passwd" catch _ => pure ""
  return (Text.splitOn (.char '\n') (Text.ofString listed)).filterMap fun line =>
    match Text.splitOn (.char ':') line with
    | name :: _ :: _ :: _ :: _ :: home :: _ => some (name, home)
    | _ => none

/-- A session in which a runner can answer a request, if there is one, and in which
the log file has its place. -/
def session (runner : Runner) (request? : Option Request) (logFile? : Option Text) :
    IO Session := do
  let workDir := placeOf (← IO.currentDir).toString
  let home := Text.ofString ((← IO.getEnv "HOME").getD "")
  let disk : Disk := { top := .dir [], workDir, home, homes := ← homesOf }
  let taking : Taking Git := do
    takePath (Path.ofPlace workDir)
    if let some name := logFile? then takePath (disk.fromTop (Path.ofText name))
    match request? with
    | some request => takeRequest runner request disk
    | none => return WorkTree.git disk
  let (git, taken) ← taking.run {}
  return sessionOf (taken.disk disk) git

end IndexCoverage.Snapshot
