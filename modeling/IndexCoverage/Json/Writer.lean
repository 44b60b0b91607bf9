import IndexCoverage.Json.Value
import IndexCoverage.Number.Shortest
import IndexCoverage.Text.Quoted

/-! Writing JSON documents in ASCII, on one line or with each item on a line of
its own that is indented by two spaces for every level. -/

namespace IndexCoverage.Json

def escapeUnit (unit : Nat) : Text := Text.ofString "\\u" ++ Text.hex 4 unit

def escapePoint (c : CodePoint) : Text :=
  let n := c.value
  if c = .char '"' then "\\\""
  else if c = .char '\\' then "\\\\"
  else if c = .char '\n' then "\\n"
  else if c = .char '\r' then "\\r"
  else if c = .char '\t' then "\\t"
  else if c = .char '\x0c' then "\\f"
  else if c = .char '\x08' then "\\b"
  else if 32 ≤ n ∧ n < 127 then [c]
  else if n < 0x10000 then escapeUnit n
  else escapeUnit (0xD800 + (n - 0x10000) / 0x400) ++ escapeUnit (0xDC00 + (n - 0x10000) % 0x400)

def writeString (s : Text) : Text :=
  [CodePoint.char '"'] ++ s.flatMap escapePoint ++ [CodePoint.char '"']

def writeFloat : Binary64 → Text
  | .infinite negative => if negative then "-Infinity" else "Infinity"
  | .nan => "NaN"
  | x => x.text

structure Layout where
  /-- What comes after the opening bracket, and between the parts after the comma, at a depth. -/
  lead : Nat → Text
  /-- What comes before the closing bracket. -/
  close : Nat → Text
  colon : Text

def compact : Layout := ⟨fun _ => [], fun _ => [], ":"⟩

def newLine (depth : Nat) : Text := CodePoint.char '\n' :: List.replicate (2 * depth) (.char ' ')

def indented : Layout := ⟨fun depth => newLine (depth + 1), newLine, ": "⟩

def enclose (layout : Layout) (depth : Nat) (first last : Char) (parts : List Text) : Text :=
  if parts.isEmpty then [.char first, .char last]
  else
    let lead := layout.lead depth
    [CodePoint.char first] ++ List.intercalate [CodePoint.char ','] (parts.map (lead ++ ·)) ++
      layout.close depth ++ [CodePoint.char last]

mutual

def write (layout : Layout) (depth : Nat) : Value → Text
  | .null => "null"
  | .bool b => if b then "true" else "false"
  | .int n => Text.ofInt n
  | .float x => writeFloat x
  | .str s => writeString s
  | .arr items => enclose layout depth '[' ']' (writeItems layout (depth + 1) items)
  | .obj fields => enclose layout depth '{' '}' (writeFields layout (depth + 1) fields)

def writeItems (layout : Layout) (depth : Nat) : List Value → List Text
  | [] => []
  | item :: rest => write layout depth item :: writeItems layout depth rest

def writeFields (layout : Layout) (depth : Nat) : List (Text × Value) → List Text
  | [] => []
  | (key, value) :: rest =>
    (writeString key ++ layout.colon ++ write layout depth value) ::
      writeFields layout depth rest

end

end IndexCoverage.Json
