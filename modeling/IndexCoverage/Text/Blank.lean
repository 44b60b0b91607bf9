import IndexCoverage.Text.CodePoint

/-! White space in text, and cutting it off at both ends. White space is what
Unicode gives a bidirectional type of separator or the category of a space. -/

namespace IndexCoverage
namespace CodePoint

def isBlank (c : CodePoint) : Bool :=
  let n := c.value
  (9 ≤ n && n ≤ 13) || (28 ≤ n && n ≤ 32) || n = 0x85 || n = 0xA0 || n = 0x1680 ||
    (0x2000 ≤ n && n ≤ 0x200A) || n = 0x2028 || n = 0x2029 || n = 0x202F || n = 0x205F ||
    n = 0x3000

end CodePoint

namespace Text

def isBlank (s : Text) : Bool := s.all CodePoint.isBlank

def trim (s : Text) : Text :=
  dropEndWhile CodePoint.isBlank (s.dropWhile CodePoint.isBlank)

end Text
end IndexCoverage
