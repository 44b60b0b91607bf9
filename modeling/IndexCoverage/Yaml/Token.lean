import IndexCoverage.Text.Encoding
import IndexCoverage.Yaml.Scalar

/-! The tokens of a YAML document, and the text of those that are neither
scalars nor single characters: directives, anchors and tags. -/

namespace IndexCoverage.Yaml

/-- A tag before its handle is looked up; a handle is absent from a tag written in full. -/
structure WrittenTag where
  handle : Option Text
  rest : Text
  deriving DecidableEq

inductive Token where
  | version (major : Nat)
  | handle (name lead : Text)
  | otherDirective
  | documentStart
  | documentEnd
  | blockSequence
  | blockMapping
  | blockEnd
  | flowSequence
  | flowSequenceEnd
  | flowMapping
  | flowMappingEnd
  | dash
  | comma
  | key
  | value
  | alias (name : List Char)
  | anchor (name : List Char)
  | tag (written : WrittenTag)
  | scalar (plain : Bool) (text : Text)
  /-- What follows cannot be divided into tokens. -/
  | broken (fault : Fault)
  deriving DecidableEq

def isTagChar (c : Char) : Bool := isWordChar c || ";/?:@&=+$,.!~*'()[]".toList.contains c

def readTagText (bytes : Bytes) : List Char → Option (Text × List Char)
  | '%' :: a :: b :: rest => do
    let a ← (CodePoint.char a).digitIn? 16
    let b ← (CodePoint.char b).digitIn? 16
    readTagText (bytes ++ [UInt8.ofNat (a * 16 + b)]) rest
  | [] => do
    let before ← Text.ofUtf8? false bytes
    some (before, [])
  | c :: rest => do
    let before ← Text.ofUtf8? false bytes
    if isTagChar c then
      let (text, rest) ← readTagText [] rest
      some (before ++ .char c :: text, rest)
    else if c = '%' then none
    else some (before, c :: rest)

def tagText? (s : List Char) : Option (Text × List Char) :=
  (readTagText [] s).filter fun (text, _) => !text.isEmpty

def handle? (s : List Char) : Option (Text × List Char) :=
  if s.head? = some ' ' then some (['!'], s)
  else
    match s.dropWhile isWordChar with
    | '!' :: rest => some (ofChars ('!' :: s.takeWhile isWordChar ++ ['!']), rest)
    | _ => none

def writtenTag? (s : List Char) : Option (WrittenTag × List Char) := do
  let (tag, rest) ← match s with
    | '<' :: inner => do
      match ← tagText? inner with
      | (text, '>' :: rest) => some (⟨none, text⟩, rest)
      | _ => none
    | s =>
      if atGap s then some (⟨none, ['!']⟩, s)
      else do
        let upToSpace := s.takeWhile fun c => c ≠ ' ' && !isBreak c
        let (handle, rest) ← if upToSpace.contains '!' then handle? s else some (['!'], s)
        let (text, rest) ← tagText? rest
        some (⟨some handle, text⟩, rest)
  if atSpace rest then some (tag, rest) else none

def anchorName? (s : List Char) : Option (List Char × List Char) :=
  let name := s.takeWhile isWordChar
  let rest := s.dropWhile isWordChar
  let ends := match rest with
    | [] => true
    | c :: _ => isBlank c || isBreak c || "?:,]\x7d%@`".toList.contains c
  if name.isEmpty || !ends then none else some (name, rest)

def skipSpaces (s : List Char) : List Char := s.dropWhile (· = ' ')

def versionNumber (s : List Char) : Except Fault (Nat × List Char) :=
  let digits := s.takeWhile Char.isDigit
  if digits.isEmpty then .error .yaml
  else
    match Numeral.int 10 (ofChars digits) with
    | .ok n => .ok (n.toNat, s.dropWhile Char.isDigit)
    | .error _ => .error .numeral

def directive (s : List Char) : Except Fault (Token × List Char) := do
  let name := s.takeWhile isWordChar
  let rest := s.dropWhile isWordChar
  if name.isEmpty ∨ !atSpace rest then throw .yaml
  if name = "YAML".toList then do
    let (major, rest) ← versionNumber (skipSpaces rest)
    match rest with
    | '.' :: rest => do
      let (_, rest) ← versionNumber rest
      if !atSpace rest then throw .yaml
      return (.version major, ← nextLine rest)
    | _ => throw .yaml
  else if name = "TAG".toList then
    match skipSpaces rest with
    | '!' :: rest =>
      match handle? rest with
      | some (handle, ' ' :: rest) =>
        match tagText? (skipSpaces rest) with
        | some (lead, rest) =>
          if !atSpace rest then throw .yaml
          return (.handle handle lead, ← nextLine rest)
        | none => throw .yaml
      | _ => throw .yaml
    | _ => throw .yaml
  else
    return (.otherDirective, ← nextLine (rest.dropWhile fun c => !isBreak c))

end IndexCoverage.Yaml
