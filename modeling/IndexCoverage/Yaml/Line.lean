import IndexCoverage.Text.CodePoint

/-! Characters of a YAML document by their part in it, and the gaps between the
words of a scalar. Text is a list of characters; its end counts as a blank and
as a line end. -/

namespace IndexCoverage.Yaml

/-- Carriage returns are line feeds before a document is looked at. -/
def isBreak (c : Char) : Bool := c = '\n' || c = '\x85' || c = '\u2028' || c = '\u2029'

def plainBreak (c : Char) : Char := if c = '\x85' then '\n' else c

def isBlank (c : Char) : Bool := c = ' ' || c = '\t'

def atLineEnd : List Char → Bool
  | [] => true
  | c :: _ => isBreak c

def atSpace : List Char → Bool
  | [] => true
  | c :: _ => c = ' ' || isBreak c

def atGap : List Char → Bool
  | [] => true
  | c :: _ => isBlank c || isBreak c

/-- Three dashes or three dots that stand by themselves. At the beginning of a
line they mark where a document starts or ends. -/
def atMarker : List Char → Bool
  | '-' :: '-' :: '-' :: rest => atGap rest
  | '.' :: '.' :: '.' :: rest => atGap rest
  | _ => false

def isWordChar (c : Char) : Bool := c.isAlphanum || c = '-' || c = '_'

def isAllowed (c : Char) : Bool :=
  let n := c.toNat
  n = 9 || n = 10 || n = 13 || (32 ≤ n && n ≤ 126) || n = 0x85 || (0xA0 ≤ n && n < 0xE000) ||
    (0xE000 ≤ n && n ≤ 0xFFFD) || 0x10000 ≤ n

/-- What separates two words of a scalar: nothing, blanks that are kept, or line
breaks that are folded. Of an escaped line break only the breaks after it count. -/
inductive Gap where
  | none
  | blanks (text : List Char)
  | breaks (first : Option Char) (more : List Char)

namespace Gap

def crossed : Gap → Bool
  | breaks _ _ => true
  | _ => false

def isNone : Gap → Bool
  | none => true
  | _ => false

def blank (c : Char) : Gap → Gap
  | none => blanks [c]
  | blanks text => blanks (text ++ [c])
  | breaks first more => breaks first more

def lineBreak (c : Char) : Gap → Gap
  | breaks first more => breaks first (more ++ [plainBreak c])
  | _ => breaks (some (plainBreak c)) []

/-- A single line feed is a space; of several, the first does not count. -/
def text : Gap → List Char
  | none => []
  | blanks text => text
  | breaks .none more => more
  | breaks (some '\n') [] => [' ']
  | breaks (some '\n') more => more
  | breaks (some c) more => c :: more

end Gap
end IndexCoverage.Yaml
