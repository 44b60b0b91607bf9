import IndexCoverage.Failure
import IndexCoverage.Number.Numeral
import IndexCoverage.Repo.Host
import IndexCoverage.Text.LowerCase

/-! The canonical name of a repository by its clone URL: the host in lower case,
the port if there is one, and the path without dot segments, without slashes at
the end and without the suffix of a bare repository. A URL without a scheme and
slashes is all path; its first segment is taken for the host as it is. -/

namespace IndexCoverage

/-- What matters of a URL: who it names and the path there, without query and fragment. -/
structure Url where
  authority : Text
  path : Text
  deriving DecidableEq

namespace Url

def slash : CodePoint := .char '/'
def colon : CodePoint := .char ':'

def isSchemeChar (c : CodePoint) : Bool :=
  c.isAsciiLetter || c.isAsciiDigit || c = .char '+' || c = .char '-' || c = .char '.'

def clean (s : Text) : Text :=
  (s.dropWhile (·.value ≤ 32)).filter fun c =>
    c ≠ .char '\t' && c ≠ .char '\r' && c ≠ .char '\n'

def dropScheme (s : Text) : Text :=
  match Text.cut colon s with
  | (scheme, some rest) =>
    if scheme.head?.any CodePoint.isAsciiLetter && scheme.all isSchemeChar then rest else s
  | _ => s

def endsAuthority (c : CodePoint) : Bool :=
  c = slash || c = .char '?' || c = .char '#'

def splitAuthority : Text → Text × Text
  | .char '/' :: .char '/' :: rest =>
    (rest.takeWhile (!endsAuthority ·), rest.dropWhile (!endsAuthority ·))
  | s => ([], s)

def bracketedError? (host : Text) : Option UriError :=
  if host.head? = some (.char 'v') then
    if Host.isFuture host then none else some .futureAddress
  else if Host.isIpv6 host then none
  else if Host.isIpv4 host then some .plainAddress
  else some (.noAddress host)

/-- What is wrong with an authority that has brackets, by the rule that URL splitting has in
the later patch releases of 3.11: it also refuses what stands in front of the opening bracket,
and behind the closing one anything but a port. The host is judged as one in brackets even if
they stand in the user information. -/
def bracketsError? (authority : Text) : Option UriError :=
  let address := (Text.cutLast (.char '@') authority).2
  match Text.cut (.char '[') address with
  | (before, some inside) =>
    let (host, after) := Text.cut (.char ']') inside
    if !before.isEmpty || (after.getD []).head?.any (· ≠ colon) then some .bracket
    else bracketedError? host
  | (_, none) => bracketedError? (Text.cut colon address).1

def authorityError? (authority : Text) : Option UriError :=
  let opened := authority.contains (.char '[')
  let closed := authority.contains (.char ']')
  let disguise := if authority.any Host.isDisguised then some (.disguise authority) else none
  if opened != closed then some .bracket
  else if opened then bracketsError? authority <|> disguise
  else disguise

def split (s : Text) : Except UriError Url :=
  let (authority, rest) := splitAuthority (dropScheme (clean s))
  match authorityError? authority with
  | some e => .error e
  | none => .ok ⟨authority, (Text.cut (.char '?') (Text.cut (.char '#') rest).1).1⟩

def hostAndPort (authority : Text) : Text × Text :=
  let address := (Text.cutLast (.char '@') authority).2
  match Text.cut (.char '[') address with
  | (_, some inside) =>
    let (host, after) := Text.cut (.char ']') inside
    (host, ((Text.cut colon (after.getD [])).2).getD [])
  | (_, none) =>
    let (host, port) := Text.cut colon address
    (host, port.getD [])

/-- The host in lower case, except for a zone after a percent sign. -/
def hostName (host : Text) : Text :=
  let (name, zone) := Text.cut (.char '%') host
  Text.lower name ++ (zone.elim [] (CodePoint.char '%' :: ·))

def port? (s : Text) : Except UriError (Option Nat) :=
  if s.isEmpty then .ok none
  else if !s.all CodePoint.isAsciiDigit then .error (.port s)
  else if maxDigits < s.length then .error (.portTooLong s.length)
  else
    let n := Numeral.valueOf 10 (s.filterMap CodePoint.digit?)
    if n ≤ 65535 then .ok (some n) else .error .portRange

/-- One more segment on the way along a path; `rooted` says that it starts at a slash. -/
def addSegment (rooted : Bool) (done : List Text) (segment : Text) : List Text :=
  if segment.isEmpty || segment = "." then done
  else if segment ≠ ".." then done ++ [segment]
  else if done.isEmpty then if rooted then [] else [segment]
  else if done.getLast? = some segment then done ++ [segment]
  else done.dropLast

/-- The slashes that a cleaned path keeps in front: exactly two stay two. -/
def leadingSlashes (path : Text) : Text :=
  match (path.takeWhile (· = slash)).length with
  | 0 => []
  | 2 => [slash, slash]
  | _ => [slash]

def normalizePath (path : Text) : Text :=
  let lead := leadingSlashes path
  let segments := (Text.splitOn slash path).foldl (addSegment (!lead.isEmpty)) []
  let cleaned := lead ++ List.intercalate [slash] segments
  if cleaned.isEmpty then "." else cleaned

def bareSuffix : Text := ".git"

def dropBareSuffix (path : Text) : Text :=
  if Text.endsWith path bareSuffix then path.take (path.length - bareSuffix.length) else path

def dropEndSlashes (path : Text) : Text := Text.dropEndWhile (· = slash) path

def hasInnerSlash (path : Text) : Bool :=
  (dropEndSlashes (path.dropWhile (· = slash))).contains slash

end Url

def canonicalUri (cloneUrl : Text) : Except UriError Text := do
  if cloneUrl.isEmpty then throw .empty
  let url ← Url.split cloneUrl
  let (host, port) := Url.hostAndPort url.authority
  let host := Url.hostName host
  let host := match ← Url.port? port with
    | some port => host ++ Url.colon :: Text.ofNat port
    | none => host
  let path := url.path
  if url.authority.isEmpty && (Text.cut Url.slash path).1.contains Url.colon then
    throw (.colonInFirstSegment cloneUrl)
  if path.isEmpty || path = [Url.slash] then throw (.noPath cloneUrl)
  if host.isEmpty && (path.head? = some Url.slash || !Url.hasInnerSlash path) then
    throw (.noHost cloneUrl)
  let path := Url.dropEndSlashes (Url.normalizePath (Url.dropBareSuffix path))
  return Text.lower host ++ path

end IndexCoverage
