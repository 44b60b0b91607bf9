import IndexCoverage.Json.Value
import IndexCoverage.Number.Numeral
import IndexCoverage.Text.Encoding

/-! Reading JSON documents from bytes in UTF-8, UTF-16 or UTF-32. The words NaN,
Infinity and -Infinity are numbers too. An escaped high surrogate and an escaped
low one that follows it are one code point; other surrogates stay alone. Brackets
may nest only so far. -/

namespace IndexCoverage.Json

inductive ReadError where
  | encoding
  | malformed
  | numeralTooLong
  /-- A bracket that opens too far within others. -/
  | tooDeep (bracket : Bracket)
  deriving DecidableEq

def isSpace (c : CodePoint) : Bool :=
  c = .char ' ' || c = .char '\t' || c = .char '\n' || c = .char '\r'

def skipSpace (s : Text) : Text := s.dropWhile isSpace

def after? (word s : Text) : Option Text :=
  if word.isPrefixOf s then some (s.drop word.length) else none

def hex4? (a b c d : CodePoint) : Option Nat := do
  let a ← a.digitIn? 16
  let b ← b.digitIn? 16
  let c ← c.digitIn? 16
  let d ← d.digitIn? 16
  some (((a * 16 + b) * 16 + c) * 16 + d)

def simpleEscape? (c : Char) : Option Char :=
  match c with
  | '"' => some '"'
  | '\\' => some '\\'
  | '/' => some '/'
  | 'b' => some '\x08'
  | 'f' => some '\x0c'
  | 'n' => some '\n'
  | 'r' => some '\r'
  | 't' => some '\t'
  | _ => none

def isHigh (n : Nat) : Bool := 0xD800 ≤ n && n < 0xDC00

def isLow (n : Nat) : Bool := 0xDC00 ≤ n && n < 0xE000

/-- A code point of a string as it is written: itself, or the number of an escape. -/
inductive Piece where
  | plain (c : CodePoint)
  | escaped (unit : Nat)

def readPieces : Text → Option (List Piece × Text)
  | [] => none
  | .char '"' :: rest => some ([], rest)
  | .char '\\' :: .char 'u' :: a :: b :: c :: d :: rest => do
    let unit ← hex4? a b c d
    let (pieces, left) ← readPieces rest
    some (.escaped unit :: pieces, left)
  | .char '\\' :: .char e :: rest => do
    let c ← simpleEscape? e
    let (pieces, left) ← readPieces rest
    some (.plain (.char c) :: pieces, left)
  | .char '\\' :: _ => none
  | c :: rest =>
    if c.value < 32 then none
    else do
      let (pieces, left) ← readPieces rest
      some (.plain c :: pieces, left)

def joinPieces : List Piece → Text
  | [] => []
  | .plain c :: rest => c :: joinPieces rest
  | [.escaped unit] => (CodePoint.ofNat? unit).toList
  | .escaped high :: .escaped low :: rest =>
    if isHigh high && isLow low then
      let joined := 0x10000 + (high - 0xD800) * 0x400 + (low - 0xDC00)
      (CodePoint.ofNat? joined).toList ++ joinPieces rest
    else
      (CodePoint.ofNat? high).toList ++ joinPieces (.escaped low :: rest)
  | .escaped unit :: .plain c :: rest =>
    (CodePoint.ofNat? unit).toList ++ c :: joinPieces rest

def readString (s : Text) : Option (Text × Text) :=
  (readPieces s).map fun (pieces, left) => (joinPieces pieces, left)

def readFraction (s : Text) : List Nat × Text :=
  match s with
  | .char '.' :: rest =>
    match Numeral.digitRun rest with
    | ([], _) => ([], s)
    | (digits, rest) => (digits, rest)
  | _ => ([], s)

def readExponent (s : Text) : Option Int × Text :=
  match s with
  | e :: rest =>
    if e = .char 'e' ∨ e = .char 'E' then
      let (negative, unsigned) := Numeral.sign rest
      match Numeral.digitRun unsigned with
      | ([], _) => (none, s)
      | (digits, rest) =>
        let n := Numeral.valueOf 10 digits
        (some (if negative then -(n : Int) else n), rest)
    else (none, s)
  | [] => (none, s)

/-- A number whose sign has been read. A whole part that begins with zero is zero. -/
def readNumber (negative : Bool) (s : Text) : Except ReadError (Value × Text) :=
  let (whole, rest) := match s with
    | .char '0' :: rest => ([0], rest)
    | s => Numeral.digitRun s
  if whole.isEmpty then .error .malformed
  else
    let (fraction, rest) := readFraction rest
    let (exponent, rest) := readExponent rest
    if fraction.isEmpty && exponent.isNone then
      if maxDigits < whole.length then .error .numeralTooLong
      else
        let n := Numeral.valueOf 10 whole
        .ok (.int (if negative then -(n : Int) else n), rest)
    else
      let digits := Numeral.valueOf 10 (whole ++ fraction)
      .ok (.float (.ofDecimal negative digits (exponent.getD 0 - fraction.length)), rest)

def readScalar (s : Text) : Except ReadError (Value × Text) :=
  let word (spelling : Text) (value : Value) := (after? spelling s).map fun rest => (value, rest)
  let words := word "null" .null <|> word "true" (.bool true) <|> word "false" (.bool false) <|>
    word "NaN" (.float .nan) <|> word "Infinity" (.float (.infinite false)) <|>
    word "-Infinity" (.float (.infinite true))
  match words with
  | some found => .ok found
  | none =>
    match s with
    | .char '-' :: rest => readNumber true rest
    | s => readNumber false s

mutual

/-- A value at the beginning of the text, with up to `depth` brackets within each
other. Each nested value starts further on and takes two steps, its own and that of
its place, so that twice the length of the text is `fuel` enough. -/
def readValue (fuel depth : Nat) (s : Text) : Except ReadError (Value × Text) :=
  match fuel with
  | 0 => .error .malformed
  | fuel + 1 =>
    match s with
    | .char '"' :: rest =>
      match readString rest with
      | some (text, rest) => .ok (.str text, rest)
      | none => .error .malformed
    | .char '[' :: rest =>
      if depth = 0 then .error (.tooDeep .array)
      else
        match skipSpace rest with
        | .char ']' :: rest => .ok (.arr [], rest)
        | rest => do
          let (items, rest) ← readItems fuel (depth - 1) rest
          return (.arr items, rest)
    | .char '{' :: rest =>
      if depth = 0 then .error (.tooDeep .object)
      else
        match skipSpace rest with
        | .char '}' :: rest => .ok (.obj [], rest)
        | rest => do
          let (fields, rest) ← readFields fuel (depth - 1) [] rest
          return (.obj fields, rest)
    | s => readScalar s

def readItems (fuel depth : Nat) (s : Text) : Except ReadError (List Value × Text) :=
  match fuel with
  | 0 => .error .malformed
  | fuel + 1 => do
    let (item, rest) ← readValue fuel depth s
    match skipSpace rest with
    | .char ',' :: rest => do
      let (items, rest) ← readItems fuel depth (skipSpace rest)
      return (item :: items, rest)
    | .char ']' :: rest => return ([item], rest)
    | _ => throw .malformed

def readFields (fuel depth : Nat) (fields : List (Text × Value)) (s : Text) :
    Except ReadError (List (Text × Value) × Text) :=
  match fuel with
  | 0 => .error .malformed
  | fuel + 1 =>
    match s with
    | .char '"' :: rest =>
      match readString rest with
      | none => .error .malformed
      | some (key, rest) =>
        match skipSpace rest with
        | .char ':' :: rest => do
          let (value, rest) ← readValue fuel depth (skipSpace rest)
          let fields := put key value fields
          match skipSpace rest with
          | .char ',' :: rest => readFields fuel depth fields (skipSpace rest)
          | .char '}' :: rest => return (fields, rest)
          | _ => throw .malformed
        | _ => .error .malformed
    | _ => .error .malformed

end

def readText (depth : Nat) (s : Text) : Except ReadError Value := do
  let (value, rest) ← readValue (2 * s.length + 1) depth (skipSpace s)
  if (skipSpace rest).isEmpty then return value else throw .malformed

def readBytes (depth : Nat) (bytes : Bytes) : Except ReadError Value :=
  match Text.ofMarkedBytes? bytes with
  | some s => readText depth s
  | none => .error .encoding

end IndexCoverage.Json
