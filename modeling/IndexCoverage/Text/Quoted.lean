import IndexCoverage.Text.Printable

/-! Quoted text in messages: between single quotes, or double quotes when the
text holds a single quote and no double one. What cannot be printed is written
by its number. -/

namespace IndexCoverage
namespace Text

def hex (width n : Nat) : Text :=
  match width with
  | 0 => []
  | width + 1 => hex width (n / 16) ++ [.char (Nat.digitChar (n % 16))]

def quoteMark (s : Text) : Char :=
  if s.contains (.char '\'') && !s.contains (.char '"') then '"' else '\''

def escapePoint (c : CodePoint) : Text :=
  let n := c.value
  if n < 0x100 then ofString "\\x" ++ hex 2 n
  else if n < 0x10000 then ofString "\\u" ++ hex 4 n
  else ofString "\\U" ++ hex 8 n

def quotePoint (mark : Char) (c : CodePoint) : Text :=
  if c = .char mark || c = .char '\\' then [.char '\\', c]
  else if c = .char '\n' then "\\n"
  else if c = .char '\r' then "\\r"
  else if c = .char '\t' then "\\t"
  else if c.isPrintable then [c]
  else escapePoint c

def quoted (s : Text) : Text :=
  let mark := quoteMark s
  [CodePoint.char mark] ++ s.flatMap (quotePoint mark) ++ [CodePoint.char mark]

end Text
end IndexCoverage
