import IndexCoverage.Yaml.Token

/-! A YAML document as a list of tokens. Blocks are shown by indentation, so that
tokens which open and close them are put in; and a key is known as one only at
the colon after it, so that its token goes in front of what has been read. -/

namespace IndexCoverage.Yaml

structure Place where
  index : Nat
  line : Nat
  column : Nat

/-- Byte order marks have no width. -/
def Place.past (place : Place) (c : Char) : Place :=
  if isBreak c then ⟨place.index + 1, place.line + 1, 0⟩
  else if c = '\ufeff' then { place with index := place.index + 1 }
  else { place with index := place.index + 1, column := place.column + 1 }

/-- Where a key may have begun: its first token and place. What stands at the
indentation of a block mapping has to be one. -/
structure Candidate where
  number : Nat
  required : Bool
  place : Place

/-- How far a document has been read. `blocks` holds the columns of the open
blocks, the innermost first; `outer` has an entry for each open bracket, the
candidate around it. -/
structure Layout where
  rest : List Char
  place : Place
  tokens : Array Token
  blocks : List Nat
  keyAllowed : Bool
  candidate : Option Candidate
  outer : List (Option Candidate)

namespace Layout

def start (text : List Char) : Layout := ⟨text, ⟨0, 0, 0⟩, #[], [], true, none, []⟩

def inBrackets (s : Layout) : Bool := !s.outer.isEmpty

def readTo (s : Layout) (rest : List Char) : Layout :=
  let consumed := s.rest.take (s.rest.length - rest.length)
  { s with rest, place := consumed.foldl Place.past s.place }

def push (s : Layout) (token : Token) : Layout := { s with tokens := s.tokens.push token }

def close (s : Layout) (column : Option Nat) : Layout :=
  if s.inBrackets then s
  else
    let keep := fun block => column.any (block ≤ ·)
    let ended := s.blocks.takeWhile fun block => !keep block
    { s with
      tokens := s.tokens ++ ended.map fun _ => Token.blockEnd
      blocks := s.blocks.drop ended.length }

def dropCandidate (s : Layout) : Except Fault Layout :=
  if s.candidate.any Candidate.required then .error .yaml
  else .ok { s with candidate := none }

def offer (s : Layout) : Except Fault Layout :=
  if s.keyAllowed then do
    let required := !s.inBrackets && s.blocks.head? = some s.place.column
    let s ← s.dropCandidate
    return { s with candidate := some ⟨s.tokens.size, required, s.place⟩ }
  else .ok s

/-- Keys are on one line and no longer than 1024 characters. -/
def isStale (s : Layout) (c : Candidate) : Bool :=
  c.place.line ≠ s.place.line || 1024 < s.place.index - c.place.index

def dropStale (s : Layout) : Except Fault Layout :=
  let stale := fun c => c.any s.isStale
  let gone := (s.candidate :: s.outer).filter stale
  if gone.any fun c => c.any Candidate.required then .error .yaml
  else
    .ok { s with
      candidate := s.candidate.filter fun c => !s.isStale c
      outer := s.outer.map fun c => c.filter fun c => !s.isStale c }

def opensBlock (s : Layout) (column : Nat) : Bool :=
  !s.inBrackets && s.blocks.head?.all (· < column)

def openBlock (s : Layout) (token : Token) (number column : Nat) : Layout :=
  if s.opensBlock column then
    { s with
      tokens := s.tokens.insertIdxIfInBounds number token
      blocks := column :: s.blocks }
  else s

/-- Blank lines, spaces and comments; after a line break outside brackets a key may begin. -/
def skip (allowed inBrackets : Bool) (comment : Bool) : List Char → Bool × List Char
  | [] => (allowed, [])
  | c :: rest =>
    if isBreak c then skip (allowed || !inBrackets) inBrackets false rest
    else if comment || c = ' ' then skip allowed inBrackets comment rest
    else if c = '#' then skip allowed inBrackets true rest
    else (allowed, c :: rest)

def advance (s : Layout) : Except Fault Layout := do
  let text := if s.place.index = 0 ∧ s.rest.head? = some '\ufeff' then s.rest.tail else s.rest
  let (keyAllowed, rest) := skip s.keyAllowed s.inBrackets false text
  let s ← { s.readTo rest with keyAllowed }.dropStale
  return s.close (some s.place.column)

def mark (s : Layout) (token : Token) (keyAllowed : Bool) : Except Fault Layout := do
  let s ← s.dropCandidate
  return { (s.readTo s.rest.tail).push token with keyAllowed }

def openBracket (s : Layout) (token : Token) : Except Fault Layout := do
  let s ← s.offer
  let s := (s.readTo s.rest.tail).push token
  return { s with keyAllowed := true, candidate := none, outer := s.candidate :: s.outer }

def closeBracket (s : Layout) (token : Token) : Except Fault Layout := do
  let s ← s.mark token false
  match s.outer with
  | [] => throw .yaml
  | candidate :: outer => return { s with candidate, outer }

/-- A dash or a question mark of a block; in brackets it is left to the reader of the tokens. -/
def blockMark (s : Layout) (opening token : Token) (keyAllowed : Bool) : Except Fault Layout :=
  if s.inBrackets then s.mark token keyAllowed
  else if s.keyAllowed then
    (s.openBlock opening s.tokens.size s.place.column).mark token keyAllowed
  else .error .yaml

/-- A colon: the key is what a candidate began, or what a question mark announced, or empty. -/
def colon (s : Layout) : Except Fault Layout :=
  match s.candidate with
  | some c =>
    let s := { s with
      tokens := s.tokens.insertIdxIfInBounds c.number .key
      candidate := none }
    (s.openBlock .blockMapping c.number c.place.column).mark .value false
  | none => s.blockMark .blockMapping .value (!s.inBrackets)

def item (s : Layout) (read : List Char → Option (Token × List Char)) : Except Fault Layout := do
  let s ← s.offer
  match read s.rest.tail with
  | some (token, rest) => return { (s.readTo rest).push token with keyAllowed := false }
  | none => throw .yaml

def quotedScalar (s : Layout) (double : Bool) : Except Fault Layout := do
  let s ← s.offer
  let (text, rest) ← quoted double (.text .none) s.rest.tail
  return { (s.readTo rest).push (.scalar false text) with keyAllowed := false }

def depth (s : Layout) : Nat :=
  match s.blocks with
  | [] => 0
  | column :: _ => column + 1

def blockScalar (s : Layout) (folded : Bool) : Except Fault Layout := do
  let s ← s.dropCandidate
  let (text, rest) ← block folded (max 1 s.depth) s.rest.tail
  return { (s.readTo rest).push (.scalar false text) with keyAllowed := true }

def plainScalar (s : Layout) : Except Fault Layout := do
  let s ← s.offer
  let scalar := plain s.inBrackets s.depth .none 0 s.rest
  return { (s.readTo scalar.rest).push (.scalar true (ofChars scalar.text)) with
    keyAllowed := scalar.crossed }

def documentMark (s : Layout) (token : Token) : Except Fault Layout := do
  let s ← (s.close none).dropCandidate
  return { (s.readTo (s.rest.drop 3)).push token with keyAllowed := false }

def directiveLine (s : Layout) : Except Fault Layout := do
  let s ← (s.close none).dropCandidate
  let (token, rest) ← directive s.rest.tail
  return { (s.readTo rest).push token with keyAllowed := false }

def beginsPlain (inBrackets : Bool) (c : Char) (rest : List Char) : Bool :=
  if "-?:,[]\x7b\x7d#&*!|>'\"%@`".toList.contains c || isBlank c || isBreak c then
    !atGap rest && (c = '-' || (!inBrackets && (c = '?' || c = ':')))
  else true

def fetch (s : Layout) (c : Char) (rest : List Char) : Except Fault Layout :=
  let lineStart := s.place.column = 0
  let inBrackets := s.inBrackets
  if c = '%' ∧ lineStart then s.directiveLine
  else if c = '-' ∧ lineStart ∧ atMarker (c :: rest) then s.documentMark .documentStart
  else if c = '.' ∧ lineStart ∧ atMarker (c :: rest) then s.documentMark .documentEnd
  else if c = '[' then s.openBracket .flowSequence
  else if c = '\x7b' then s.openBracket .flowMapping
  else if c = ']' then s.closeBracket .flowSequenceEnd
  else if c = '\x7d' then s.closeBracket .flowMappingEnd
  else if c = ',' then s.mark .comma true
  else if c = '-' ∧ atGap rest then s.blockMark .blockSequence .dash true
  else if c = '?' ∧ (inBrackets ∨ atGap rest) then s.blockMark .blockMapping .key (!inBrackets)
  else if c = ':' ∧ (inBrackets ∨ atGap rest) then s.colon
  else if c = '*' then s.item fun s => (anchorName? s).map fun (name, rest) => (.alias name, rest)
  else if c = '&' then s.item fun s => (anchorName? s).map fun (name, rest) => (.anchor name, rest)
  else if c = '!' then s.item fun s => (writtenTag? s).map fun (tag, rest) => (.tag tag, rest)
  else if c = '|' ∧ !inBrackets then s.blockScalar false
  else if c = '>' ∧ !inBrackets then s.blockScalar true
  else if c = '\'' then s.quotedScalar false
  else if c = '"' then s.quotedScalar true
  else if beginsPlain inBrackets c rest then s.plainScalar
  else .error .yaml

/-- The tokens before a fault of the next one. One that may turn out to begin a key
is not known yet. -/
def broken (s : Layout) (fault : Fault) : List Token :=
  let candidates := (s.candidate :: s.outer).filterMap fun c => c.filter fun c => !s.isStale c
  let known := candidates.foldl (fun known c => min known c.number) s.tokens.size
  s.tokens.toList.take known ++ [.broken fault]

def run (fuel : Nat) (s : Layout) : List Token :=
  match fuel with
  | 0 => s.broken .yaml
  | fuel + 1 =>
    match s.advance with
    | .error fault => s.broken fault
    | .ok ready =>
      match ready.rest with
      | [] =>
        match (ready.close none).dropCandidate with
        | .ok ended => ended.tokens.toList
        | .error fault => s.broken fault
      | c :: rest =>
        match ready.fetch c rest with
        | .ok next => run fuel next
        | .error fault => s.broken fault

end Layout

/-- Every token but those put in for blocks and keys takes a character at least. -/
def tokens (text : List Char) : List Token :=
  if text.all isAllowed then (Layout.start text).run (text.length + 1)
  else [.broken .yaml]

end IndexCoverage.Yaml
