import IndexCoverage.Number.Numeral

/-! The words of a command line, by what they look like to a parser with a table
of options: options with or without a value attached, and plain words. A long
option may be cut short if the rest is not in doubt. -/

namespace IndexCoverage.CommandLine

inductive Flag where
  | help
  | verbose
  | logFile
  | commit
  | buildDataDir
  | host
  | port
  deriving DecidableEq

def Flag.takesValue : Flag → Bool
  | help => false
  | verbose => false
  | _ => true

abbrev Table := List (Text × Flag)

def commonTable : Table :=
  [("-h", .help), ("--help", .help), ("-v", .verbose), ("--verbose", .verbose)]

inductive Attached where
  | nothing
  /-- What follows an equals sign. -/
  | value (text : Text)
  /-- What follows a spelling of one letter. -/
  | letters (text : Text)
  deriving DecidableEq

inductive Word where
  | plain
  /-- The first `--`; all words after it are plain. -/
  | dashes
  | flag (flag : Flag) (attached : Attached)
  /-- An option that the parser does not know. -/
  | unknown
  deriving DecidableEq

def dash : CodePoint := .char '-'

def Attached.ofValue : Option Text → Attached
  | none => nothing
  | some text => value text

/-- The options that a word may stand for, with what is attached. With two dashes
the name may be cut short; with one it is a letter. -/
def readings (table : Table) (word : Text) : List Word :=
  if word[1]? = some dash then
    let (name, value) := Text.cut (.char '=') word
    table.filterMap fun (spelling, flag) =>
      if spelling.startsWith name then some (.flag flag (.ofValue value)) else none
  else
    table.filterMap fun (spelling, flag) =>
      if spelling = word.take 2 then some (.flag flag (.letters (word.drop 2))) else none

def isNegative (word : Text) : Bool :=
  let digits := word.tail.map Numeral.asciiDigit
  let digits := if digits.getLast? = some (.char '\n') then digits.dropLast else digits
  let (whole, fraction) := Text.cut (.char '.') digits
  whole.all CodePoint.isAsciiDigit &&
    match fraction with
    | none => !whole.isEmpty
    | some fraction => !fraction.isEmpty && fraction.all CodePoint.isAsciiDigit

def spelledOut? (table : Table) (word : Text) : Option Word :=
  match table.lookup word with
  | some flag => some (.flag flag .nothing)
  | none =>
    match Text.cut (.char '=') word with
    | (name, some value) =>
      (table.lookup name).map fun flag => .flag flag (.value value)
    | (_, none) => none

def classify (table : Table) (word : Text) : Option Word :=
  if word.head? ≠ some dash ∨ word.length = 1 then some .plain
  else
    match spelledOut? table word with
    | some found => some found
    | none =>
      match readings table word with
      | [found] => some found
      | _ :: _ :: _ => none
      | [] =>
        if isNegative word ∨ word.contains (.char ' ') then some .plain else some .unknown

def wordsOf (table : Table) : List Text → Option (List (Text × Word))
  | [] => some []
  | word :: rest =>
    if word = [dash, dash] then
      some ((word, .dashes) :: rest.map fun word => (word, .plain))
    else do
      let found ← classify table word
      let rest ← wordsOf table rest
      some ((word, found) :: rest)

end IndexCoverage.CommandLine
