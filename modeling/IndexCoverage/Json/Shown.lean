import IndexCoverage.Json.Value
import IndexCoverage.Number.Shortest
import IndexCoverage.Text.Quoted

/-! A document as it is shown where a text is asked for: a string is itself, and
strings inside an array or object are quoted. -/

namespace IndexCoverage.Json

def showBool (b : Bool) : Text := if b then "True" else "False"

mutual

def showNested : Value → Text
  | .null => "None"
  | .bool b => showBool b
  | .int n => Text.ofInt n
  | .float x => x.text
  | .str s => s.quoted
  | .arr items => Text.join ["[", List.intercalate ", " (showItems items), "]"]
  | .obj fields => Text.join ["\x7b", List.intercalate ", " (showFields fields), "\x7d"]

def showItems : List Value → List Text
  | [] => []
  | item :: rest => showNested item :: showItems rest

def showFields : List (Text × Value) → List Text
  | [] => []
  | (key, value) :: rest => Text.join [key.quoted, ": ", showNested value] :: showFields rest

end

def Value.shown : Value → Text
  | .str s => s
  | value => showNested value

end IndexCoverage.Json
