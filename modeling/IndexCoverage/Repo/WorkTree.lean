import IndexCoverage.Disk.Lookup
import IndexCoverage.Repo.Git
import IndexCoverage.Text.Blank
import IndexCoverage.Text.LowerCase

/-! What git answers in a working tree, from the files in git's directory: the
commit comes from `HEAD` and the refs, the origin from `config`. -/

namespace IndexCoverage.WorkTree

def gitName : Text := ".git"

def rootOf? (disk : Disk) (place : List Text) : Option (List Text) :=
  ((List.range (place.length + 1)).reverse.map place.take).find? fun root =>
    (disk.top.at? (root ++ [gitName])).isSome

def textAt? (disk : Disk) (dir : Path) (name : Text) : Option Text :=
  match disk.read (dir.join (Path.ofText name)) with
  | .ok bytes => Text.ofUtf8? false bytes
  | .error _ => none

def gitDir? (disk : Disk) (root : List Text) : Option Path :=
  let tree := Path.ofPlace root
  match disk.find (tree.child gitName) with
  | .ok (_, .dir _) => some (tree.child gitName)
  | .ok _ => do
    let text ← textAt? disk tree gitName
    if text.startsWith "gitdir:" then some (tree.join (Path.ofText (Text.trim (text.drop 7))))
    else none
  | .error _ => none

def gitDirs (disk : Disk) (dir : Path) : List Path :=
  match textAt? disk dir "commondir" with
  | some text => [dir, dir.join (Path.ofText text.trim)]
  | none => [dir]

def linesOf (text : Text) : List Text := (Text.splitOn (.char '\n') text).map Text.trim

def packed? (disk : Disk) (dirs : List Path) (name : Text) : Option Text :=
  dirs.findSome? fun dir => do
    let text ← textAt? disk dir "packed-refs"
    (linesOf text).findSome? fun line =>
      match Text.cut (.char ' ') line with
      | (commit, some ref) => if ref = name then some commit else none
      | _ => none

/-- The commit that a ref leads to; refs that name refs are followed `depth` times. -/
def commit? (disk : Disk) (dirs : List Path) (name : Text) (depth : Nat) : Option Text :=
  match dirs.findSome? fun dir => textAt? disk dir name with
  | none => packed? disk dirs name
  | some text =>
    match depth with
    | 0 => none
    | depth + 1 =>
      if text.startsWith "ref:" then commit? disk dirs (Text.trim (text.drop 4)) depth
      else some text.trim

/-- The section that a line of `config` opens; the case of the name in front does not count. -/
def section? (line : Text) : Option Text :=
  if line.head? = some (.char '[') then
    let (name, part) := Text.cut (.char ' ') ((line.drop 1).takeWhile (· ≠ .char ']'))
    some (Text.lower name ++ part.elim [] (CodePoint.char ' ' :: ·))
  else none

def bareValue (inQuotes : Bool) : Text → Text
  | [] => []
  | .char '\\' :: c :: rest => c :: bareValue inQuotes rest
  | c :: rest =>
    if c = .char '"' then bareValue (!inQuotes) rest
    else if !inQuotes && (c = .char '#' || c = .char ';') then []
    else c :: bareValue inQuotes rest

def lastValue? (wanted key : Text) (inside : Bool) (last : Option Text) :
    List Text → Option Text
  | [] => last
  | line :: rest =>
    match section? line with
    | some found => lastValue? wanted key (found = wanted) last rest
    | none =>
      match Text.cut (.char '=') line with
      | (name, some value) =>
        if inside && Text.lower name.trim = key then
          lastValue? wanted key inside (some (bareValue false value).trim) rest
        else lastValue? wanted key inside last rest
      | _ => lastValue? wanted key inside last rest

def origin? (disk : Disk) (dirs : List Path) : Option Text :=
  dirs.findSome? fun dir => do
    lastValue? "remote \"origin\"" "url" false none (linesOf (← textAt? disk dir "config"))

def maxRefs : Nat := 5

def printed (text? : Option Text) (status : Int) : Git.Reply :=
  match text? with
  | some text => .printed (text ++ [CodePoint.char '\n'])
  | none => .exit status

def reply (disk : Disk) (call : Git.Call) : Git.Reply :=
  let root? := rootOf? disk call.place.parts
  let dirs := ((root?.bind (gitDir? disk)).map (gitDirs disk)).getD []
  match call.query with
  | .topLevel => printed (root?.map fun root => (Path.ofPlace root).text) 128
  | .head => printed (commit? disk dirs "HEAD" maxRefs) 128
  | .origin => printed (origin? disk dirs) 1

def git (disk : Disk) : Git := fun _ call => reply disk call

end IndexCoverage.WorkTree
