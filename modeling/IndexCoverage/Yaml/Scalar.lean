import IndexCoverage.Failure
import IndexCoverage.Yaml.Line

/-! The text of scalars: plain words, quoted text and indented blocks. Each
reader goes through the characters once and says what it leaves. -/

namespace IndexCoverage.Yaml

/-- A plain scalar, whether line breaks follow it, and what comes after these. -/
structure Plain where
  text : List Char
  crossed : Bool
  rest : List Char

def Plain.push (front : List Char) (scalar : Plain) : Plain :=
  { scalar with text := front ++ scalar.text }

def endsItem (c : Char) : Bool := c = ',' || c = '?' || c = '[' || c = ']' || c = '{' || c = '}'

def atBracketOrComma : List Char → Bool
  | c :: _ => c ≠ '?' && endsItem c
  | [] => false

def endsWord (flow : Bool) (c : Char) (rest : List Char) : Bool :=
  isBlank c || isBreak c || (c = ':' && (atGap rest || (flow && atBracketOrComma rest))) ||
    (flow && endsItem c)

/-- The rest of a plain scalar, after `gap`. Outside brackets its lines have to
be indented by `indent`; `column` counts the spaces since the last line break. -/
def plain (flow : Bool) (indent : Nat) (gap : Gap) (column : Nat) : List Char → Plain
  | [] => ⟨[], gap.crossed, []⟩
  | c :: rest =>
    if isBreak c then
      if atMarker rest then ⟨[], true, rest⟩
      else plain flow indent (gap.lineBreak c) 0 rest
    else if c = ' ' then plain flow indent (gap.blank c) (column + 1) rest
    else if endsWord flow c rest || (!gap.isNone && c = '#') ||
        (gap.crossed && !flow && column < indent) then
      ⟨[], gap.crossed, c :: rest⟩
    else (plain flow indent .none 0 rest).push (gap.text ++ [c])

/-- A quoted scalar between two characters, behind a backslash, or within the
digits of a code number. -/
inductive Inside where
  | text (gap : Gap)
  | escape
  | code (left value : Nat)

def escapedChar? (c : Char) : Option Char :=
  match c with
  | '0' => some '\x00'
  | 'a' => some '\x07'
  | 'b' => some '\x08'
  | 't' => some '\t'
  | '\t' => some '\t'
  | 'n' => some '\n'
  | 'v' => some '\x0b'
  | 'f' => some '\x0c'
  | 'r' => some '\r'
  | 'e' => some '\x1b'
  | ' ' => some ' '
  | '"' => some '"'
  | '\\' => some '\\'
  | '/' => some '/'
  | 'N' => some '\x85'
  | '_' => some '\xa0'
  | 'L' => some '\u2028'
  | 'P' => some '\u2029'
  | _ => none

def codeLength? (c : Char) : Option Nat :=
  match c with
  | 'x' => some 2
  | 'u' => some 4
  | 'U' => some 8
  | _ => none

def numbered (n : Nat) : Except Fault CodePoint :=
  match CodePoint.ofNat? n with
  | some c => .ok c
  | none => .error (if n < Nat.pow 2 31 then .numeral else .overflow)

def pushText (front : Text) : Text × List Char → Text × List Char
  | (text, rest) => (front ++ text, rest)

def ofChars (s : List Char) : Text := s.map .char

def quoted (double : Bool) : Inside → List Char → Except Fault (Text × List Char)
  | _, [] => .error .yaml
  | .code left value, c :: rest =>
    match (CodePoint.char c).digitIn? 16 with
    | none => .error .yaml
    | some digit =>
      let value := value * 16 + digit
      if left ≤ 1 then do
        let point ← numbered value
        return pushText [point] (← quoted double (.text .none) rest)
      else quoted double (.code (left - 1) value) rest
  | .escape, c :: rest =>
    if isBreak c then
      if atMarker rest then .error .yaml
      else quoted double (.text (.breaks none [])) rest
    else
      match codeLength? c, escapedChar? c with
      | some digits, _ => quoted double (.code digits 0) rest
      | none, some shown => (quoted double (.text .none) rest).map (pushText [.char shown])
      | none, none => .error .yaml
  | .text gap, c :: rest =>
    if isBreak c then
      if atMarker rest then .error .yaml
      else quoted double (.text (gap.lineBreak c)) rest
    else if isBlank c then quoted double (.text (gap.blank c)) rest
    else
      let before := ofChars gap.text
      let plainly := (quoted double (.text .none) rest).map (pushText (before ++ [.char c]))
      if double then
        if c = '"' then .ok (before, rest)
        else if c = '\\' then (quoted double .escape rest).map (pushText before)
        else plainly
      else if c = '\'' then
        match rest with
        | '\'' :: rest =>
          (quoted double (.text .none) rest).map (pushText (before ++ [.char '\'']))
        | rest => .ok (before, rest)
      else plainly

inductive Chomp where
  | strip
  | clip
  | keep
  deriving DecidableEq

def chompMark : List Char → Option Chomp × List Char
  | '+' :: rest => (some .keep, rest)
  | '-' :: rest => (some .strip, rest)
  | rest => (none, rest)

def indentMark : List Char → Option Nat × List Char
  | c :: rest =>
    match (CodePoint.char c).digit? with
    | some digit => (some digit, rest)
    | none => (none, c :: rest)
  | [] => (none, [])

def nextLine (s : List Char) : Except Fault (List Char) :=
  let s := s.dropWhile (· = ' ')
  let s := if s.head? = some '#' then s.dropWhile fun c => !isBreak c else s
  if atLineEnd s then .ok s.tail else .error .yaml

/-- The deepest of the blank lines before the first line with a word, or that line's own depth. -/
def deepest (column : Nat) : List Char → Nat
  | [] => column
  | c :: rest =>
    if c = ' ' then deepest (column + 1) rest
    else if isBreak c then max column (deepest 0 rest)
    else column

/-- Within a line of a block, or between two: `last` is the line break of the line
before with whether that line begins with a word. -/
inductive InBlock where
  | gap (last : Option (Char × Bool)) (breaks : List Char) (column : Nat)
  | line (wordFirst : Bool)

/-- What separates two lines of a block. In a folded one, a line feed between two
lines that begin with words is a space, or nothing if empty lines follow. -/
def betweenLines (folded : Bool) (last : Option (Char × Bool)) (breaks : List Char)
    (wordNext : Bool) : List Char :=
  match last with
  | none => breaks
  | some (lineBreak, wordFirst) =>
    if folded && lineBreak = '\n' && wordFirst && wordNext then
      if breaks.isEmpty then [' '] else breaks
    else lineBreak :: breaks

def afterLines (chomp : Chomp) (last : Option (Char × Bool)) (breaks : List Char) : List Char :=
  let ending := if chomp = .strip then [] else (last.map Prod.fst).toList
  ending ++ if chomp = .keep then breaks else []

def blockLines (folded : Bool) (chomp : Chomp) (indent : Nat) :
    InBlock → List Char → List Char × List Char
  | .gap last breaks _, [] => (afterLines chomp last breaks, [])
  | .line _, [] => ([], [])
  | .gap last breaks column, c :: rest =>
    if c = ' ' ∧ column < indent then
      blockLines folded chomp indent (.gap last breaks (column + 1)) rest
    else if isBreak c then
      blockLines folded chomp indent (.gap last (breaks ++ [plainBreak c]) 0) rest
    else if column = indent then
      let word := !isBlank c
      let (text, rest) := blockLines folded chomp indent (.line word) rest
      (betweenLines folded last breaks word ++ c :: text, rest)
    else (afterLines chomp last breaks, c :: rest)
  | .line wordFirst, c :: rest =>
    if isBreak c then
      blockLines folded chomp indent (.gap (some (plainBreak c, wordFirst)) [] 0) rest
    else
      let (text, rest) := blockLines folded chomp indent (.line wordFirst) rest
      (c :: text, rest)

/-- A block, after its `|` or `>`, whose lines are indented by `least` at the
least. A digit in its first line says how much more than `least - 1`. -/
def block (folded : Bool) (least : Nat) (s : List Char) : Except Fault (Text × List Char) := do
  let (first, s) := chompMark s
  let (increment, s) := indentMark s
  let (second, s) := if first.isNone then chompMark s else (none, s)
  if increment = some 0 ∨ !atSpace s then throw .yaml
  let lines ← nextLine s
  let indent := match increment with
    | some more => least + more - 1
    | none => max least (deepest 0 lines)
  let chomp := (first <|> second).getD .clip
  let (text, rest) := blockLines folded chomp indent (.gap none [] 0) lines
  return (ofChars text, rest)

end IndexCoverage.Yaml
