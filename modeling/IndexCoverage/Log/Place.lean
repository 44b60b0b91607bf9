import IndexCoverage.Number.Numeral

/-! Templates of messages, as the places for values that are in them and the text
around these. A place is a percent sign, perhaps a key in parentheses, flags, a
least width, a point with a precision, a letter for the size, which means nothing,
and the letter of its form. Two percent signs are one. -/

namespace IndexCoverage.Template

/-- How a value is shown: as a text, quoted, quoted in ASCII, as a number, or as a character. -/
inductive Form where
  | text
  | quoted
  | ascii
  | decimal
  | octal
  | hex (upper : Bool)
  | exponent (upper : Bool)
  | fixed (upper : Bool)
  | general (upper : Bool)
  | character
  deriving DecidableEq

def forms : List (Char × Form) := [
  ('s', .text), ('r', .quoted), ('a', .ascii), ('d', .decimal), ('i', .decimal), ('u', .decimal),
  ('o', .octal), ('x', .hex false), ('X', .hex true), ('e', .exponent false),
  ('E', .exponent true), ('f', .fixed false), ('F', .fixed true), ('g', .general false),
  ('G', .general true), ('c', .character)]

def form? : CodePoint → Option Form
  | .char c => forms.lookup c
  | .lone _ => none

/-- A number in a place: it is written there, or the next value is it. -/
inductive Measure where
  | given (n : Nat)
  | asked
  deriving DecidableEq

structure Flags where
  /-- Blanks go on the right. -/
  left : Bool
  /-- A number that is not negative has a plus sign. -/
  plus : Bool
  /-- A number that is not negative has a blank for a sign. -/
  blank : Bool
  /-- The mark of the base, or the point, is always there. -/
  full : Bool
  /-- A number is filled with zeros. -/
  zeros : Bool
  deriving DecidableEq

structure Place where
  key : Option Text
  flags : Flags
  width : Option Measure
  precision : Option Measure
  form : Form
  deriving DecidableEq

inductive Piece where
  | literal (c : CodePoint)
  | place (place : Place)
  deriving DecidableEq

/-- What stands before the parenthesis that closes the one before the text, and what
follows it; `depth` counts those opened since. -/
def inParentheses? (depth : Nat) : Text → Option (Text × Text)
  | [] => none
  | c :: rest =>
    let more (depth : Nat) := (inParentheses? depth rest).map fun (key, rest) => (c :: key, rest)
    if c = .char '(' then more (depth + 1)
    else if c = .char ')' then
      match depth with
      | 0 => some ([], rest)
      | depth + 1 => more depth
    else more depth

def key? : Text → Option (Option Text × Text)
  | .char '(' :: rest => (inParentheses? 0 rest).map fun (key, rest) => (some key, rest)
  | s => some (none, s)

def flagSigns : Text := "-+ #0"

def Flags.ofSigns (signs : Text) : Flags where
  left := signs.contains (.char '-')
  plus := signs.contains (.char '+')
  blank := signs.contains (.char ' ')
  full := signs.contains (.char '#')
  zeros := signs.contains (.char '0')

def measure : Text → Option Measure × Text
  | .char '*' :: rest => (some .asked, rest)
  | s =>
    match Numeral.digitRun s with
    | ([], rest) => (none, rest)
    | (digits, rest) => (some (.given (Numeral.valueOf 10 digits)), rest)

def precision : Text → Option Measure × Text
  | .char '.' :: rest =>
    let (found, rest) := measure rest
    (some (found.getD (.given 0)), rest)
  | s => (none, s)

def dropSize : Text → Text
  | c :: rest => if c = .char 'h' || c = .char 'l' || c = .char 'L' then rest else c :: rest
  | [] => []

def place? (s : Text) : Option (Place × Text) := do
  let (key, s) ← key? s
  let flags := Flags.ofSigns (s.takeWhile flagSigns.contains)
  let (width, s) := measure (s.dropWhile flagSigns.contains)
  let (precision, s) := precision s
  match dropSize s with
  | c :: rest => return (⟨key, flags, width, precision, ← form? c⟩, rest)
  | [] => none

/-- The pieces of a template, if every percent sign in it starts a place or is written twice. -/
def pieces? : Text → Option (List Piece)
  | [] => some []
  | c :: rest =>
    if c = .char '%' then
      if rest.head? = some c then (pieces? rest.tail).map (.literal c :: ·)
      else
        match place? rest with
        | some (place, after) =>
          if after.length ≤ rest.length then (pieces? after).map (.place place :: ·) else none
        | none => none
    else (pieces? rest).map (.literal c :: ·)
termination_by s => s.length
decreasing_by all_goals (simp only [List.length_cons, List.length_tail]; omega)

end IndexCoverage.Template
