import IndexCoverage.Text.CodePoint

/-! What may stand in the brackets of a host, and which characters a host must not
hold since they turn into delimiters when they are put in their plain form. -/

namespace IndexCoverage.Host

def isDecimalOctet (part : Text) : Bool :=
  !part.isEmpty && part.length ≤ 3 && part.all CodePoint.isAsciiDigit &&
    (part.length = 1 || part.head? ≠ some (.char '0')) &&
    part.foldl (fun n c => n * 10 + (c.digit?.getD 0)) 0 ≤ 255

def isIpv4 (s : Text) : Bool :=
  let parts := Text.splitOn (.char '.') s
  parts.length = 4 && parts.all isDecimalOctet

def isHextet (part : Text) : Bool :=
  !part.isEmpty && part.length ≤ 4 && part.all fun c => (c.digitIn? 16).isSome

def groups? (s : Text) : Option (List Text) :=
  let parts := Text.splitOn (.char ':') s
  let last := parts.getLast?.getD []
  if parts.length < 3 then none
  else if last.contains (.char '.') then
    if isIpv4 last then some (parts.dropLast ++ (["0", "0"] : List Text)) else none
  else some parts

/-- Eight groups, or fewer around one gap; a gap at an end is written with two colons there. -/
def isIpv6Groups (parts : List Text) : Bool :=
  let inner := parts.tail.dropLast
  match (inner.filter List.isEmpty).length with
  | 0 => parts.length = 8 && parts.all isHextet
  | 1 =>
    let before := parts.head?.toList ++ inner.takeWhile (!·.isEmpty)
    let after := (inner.dropWhile (!·.isEmpty)).tail ++ parts.getLast?.toList
    let before := if before = [[]] then [] else before
    let after := if after = [[]] then [] else after
    before.all isHextet && after.all isHextet && before.length + after.length < 8
  | _ => false

def isIpv6 (s : Text) : Bool :=
  let (address, zone) := Text.cut (.char '%') s
  let zoneOk := zone.all fun zone => !zone.isEmpty && !zone.contains (.char '%')
  zoneOk && (groups? address).any isIpv6Groups

def isFuture : Text → Bool
  | .char 'v' :: rest =>
    let (version, more) := Text.cut (.char '.') rest
    !version.isEmpty && version.all (fun c => (c.digitIn? 16).isSome) && more.any (!·.isEmpty)
  | _ => false

/-- Characters whose compatibility form holds a slash, question mark, number sign, at sign or
colon. -/
def disguisedRanges : List (Nat × Nat) := [
  (8263, 8265), (8448, 8449), (8453, 8454), (10868, 10868), (65043, 65043), (65046, 65046),
  (65109, 65110), (65119, 65119), (65131, 65131), (65283, 65283), (65295, 65295),
  (65306, 65306), (65311, 65312)]

def isDisguised (c : CodePoint) : Bool :=
  disguisedRanges.any fun (first, last) => first ≤ c.value && c.value ≤ last

end IndexCoverage.Host
