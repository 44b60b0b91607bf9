import IndexCoverage.Disk.Lookup

/-! The place that a path leads to, as an absolute path without links. What is
missing counts as a plain name, so that paths to nothing have a place too. A path
that leads into a circle of links has none; it is told by the text of the way up to
the link where the circle closes and of all that was left to follow. -/

namespace IndexCoverage
namespace Disk

def maxLinkDepth : Nat := 1000

def linkAt? (disk : Disk) (path : Path) : Option Text :=
  match refused? path.text, disk.follow false maxLinks (disk.startOf path) path.parts with
  | none, .ok (_, .link target) => some target
  | _, _ => none

def joinTexts (base more : Text) : Text :=
  if more.head? = some Path.slash then more
  else if base.isEmpty || base.getLast? = some Path.slash then base ++ more
  else base ++ Path.slash :: more

def joinRest (base : Text) (rest : List Text) : Text :=
  joinTexts base (List.intercalate [Path.slash] rest)

/-- The links that have been met, by path: one that is still being followed has no
goal. A link that is met by two spellings counts as two. -/
abbrev Met := List (Path × Option Path)

/-- Follows the parts of a text from a path without links. The result is the path
that they lead to, or the text of the way into a circle. -/
def wayFrom (disk : Disk) (depth : Nat) (met : Met) (path : Path) :
    List Text → Except Text Path × Met
  | [] => (.ok path, met)
  | name :: rest =>
    if name.isEmpty || name = Path.dot then wayFrom disk depth met path rest
    else if name = Path.dotDot then wayFrom disk depth met path.up rest
    else
      let next := path.child name
      match disk.linkAt? next with
      | none => wayFrom disk depth met next rest
      | some target =>
        match met.lookup next, depth with
        | some (some goal), depth => wayFrom disk depth met goal rest
        | some none, _ | none, 0 => (.error (joinRest next.text rest), met)
        | none, depth + 1 =>
          let start := if target.head? = some Path.slash then ⟨.root, []⟩ else path
          match wayFrom disk depth ((next, none) :: met) start (Text.splitOn Path.slash target) with
          | (.ok goal, met) => wayFrom disk (depth + 1) ((next, some goal) :: met) goal rest
          | (.error text, met) => (.error (joinRest text rest), met)
termination_by names => (depth, names.length)

def goUp (place : List Text) : List Text → List Text
  | [] => place
  | name :: rest =>
    if name = Path.dotDot then goUp place.dropLast rest else goUp (place ++ [name]) rest

/-- A path from the top, in which two dots go up whatever the links are. -/
def fromTop (disk : Disk) (path : Path) : Path :=
  let whole := (Path.ofPlace disk.workDir).join path
  { whole with parts := goUp [] whole.parts }

/-- Why the system does not take a text as a name, if it does not. -/
def badName? (name : Text) : Option PathError :=
  if (nameBytes? name).isNone then some .fileName
  else if name.contains (.char '\x00') then some .nullByte
  else none

def resolve (disk : Disk) (path : Path) : Except PathError Path :=
  match path.parts.findSome? badName? with
  | some e => .error e
  | none =>
    let start : Path := ⟨if path.isAbsolute then .root else .relative, []⟩
    match (disk.wayFrom maxLinkDepth [] start path.parts).1 with
    | .ok goal => .ok (disk.fromTop goal)
    | .error text =>
      let place := disk.fromTop (Path.ofText text)
      match disk.find place with
      | .error (.system ⟨.linkLoop, text⟩) => .error (.linkLoop text)
      | .error .fileName => .error .fileName
      | .error .nullByte => .error .nullByte
      | _ => .ok place

def tilde : CodePoint := .char '~'

/-- The home directory that a part with a tilde in front stands for: that of the user
who is named behind the tilde, or the disk's own. -/
def homeOf (disk : Disk) (part : Text) : Except PathError Text :=
  if part = [tilde] then .ok disk.home
  else
    match badName? part with
    | some e => .error e
    | none => ((disk.homes.lookup (part.drop 1)).elim (.error .noHome) .ok)

/-- A path with a tilde in front put in place of the home directory. One that begins
with a tilde itself is none. -/
def expandHome (disk : Disk) (path : Path) : Except PathError Path :=
  match path.anchor, path.parts with
  | .relative, first :: rest =>
    if first.head? = some tilde then do
      let home := Text.dropEndWhile (· = Path.slash) (← disk.homeOf first)
      if home.head? = some tilde then throw .noHome
      return (Path.ofText (if home.isEmpty then "/" else home)).join ⟨.relative, rest⟩
    else .ok path
  | _, _ => .ok path

def locate (disk : Disk) (asked : Text) : Except PathError Path := do
  disk.resolve (← disk.expandHome (Path.ofText asked))

end Disk
end IndexCoverage
