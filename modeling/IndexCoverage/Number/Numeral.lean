import IndexCoverage.Text.Blank
import IndexCoverage.Number.Binary64

/-! Numerals in text. An integer numeral has a sign, digits of its base with
single underscores between them, and white space around it; a digit may come
from any script. A decimal numeral also has a point and an exponent. -/

namespace IndexCoverage

/-- The zeros of the decimal digits beyond ASCII; each is followed by its one to nine. -/
def digitZeros : List Nat := [
  1632, 1776, 1984, 2406, 2534, 2662, 2790, 2918, 3046, 3174, 3302, 3430, 3558, 3664, 3792,
  3872, 4160, 4240, 6112, 6160, 6470, 6608, 6784, 6800, 6992, 7088, 7232, 7248, 42528, 43216,
  43264, 43472, 43504, 43600, 44016, 65296, 66720, 68912, 69734, 69872, 69942, 70096, 70384,
  70736, 70864, 71248, 71360, 71472, 71904, 72016, 72784, 73040, 73120, 92768, 92864, 93008,
  120782, 120792, 120802, 120812, 120822, 123200, 123632, 125264, 130032]

/-- Integers with more decimal digits than this are neither read nor written. -/
def maxDigits : Nat := 4300

inductive NumeralError where
  | malformed
  | tooLong
  deriving DecidableEq

namespace Numeral

def asciiDigit (c : CodePoint) : CodePoint :=
  let n := c.value
  if n < 128 then c
  else
    match digitZeros.find? fun nought => nought ≤ n && n ≤ nought + 9 with
    | some nought => .char (Char.ofNat (48 + (n - nought)))
    | none => c

/-- White space around a numeral: of ASCII, only space and tab to carriage return. -/
def isBlank (c : CodePoint) : Bool :=
  let n := c.value
  if n < 128 then n = 32 || (9 ≤ n && n ≤ 13) else c.isBlank

def trim (s : Text) : Text := Text.dropEndWhile isBlank (s.dropWhile isBlank)

def sign : Text → Bool × Text
  | .char '-' :: rest => (true, rest)
  | .char '+' :: rest => (false, rest)
  | s => (false, s)

/-- Digits with single underscores between them; `after` says that a digit came just before. -/
def digits? (base : Nat) (after : Bool) : Text → Option (List Nat)
  | [] => if after then some [] else none
  | c :: rest =>
    if c = .char '_' then
      if after then digits? base false rest else none
    else
      match c.digitIn? base with
      | some d => (digits? base true rest).map (d :: ·)
      | none => none

def valueOf (base : Nat) (digits : List Nat) : Nat := digits.foldl (fun n d => n * base + d) 0

/-- Without the letter that may announce a base of 2, 8 or 16, and an underscore after it. -/
def dropMark (base : Nat) (s : Text) : Text :=
  let mark := if base = 2 then 'b' else if base = 8 then 'o' else 'x'
  match s with
  | .char '0' :: c :: rest =>
    if base ≠ 10 ∧ (c = .char mark ∨ c = .char mark.toUpper) then
      match rest with
      | .char '_' :: rest => rest
      | rest => rest
    else s
  | _ => s

def int (base : Nat) (s : Text) : Except NumeralError Int :=
  let (negative, unsigned) := sign (trim (s.map asciiDigit))
  match digits? base false (dropMark base unsigned) with
  | none => .error .malformed
  | some digits =>
    if base = 10 ∧ maxDigits < digits.length then .error .tooLong
    else
      let n := valueOf base digits
      .ok (if negative then -(n : Int) else n)

def digitRun : Text → List Nat × Text
  | [] => ([], [])
  | c :: rest =>
    match c.digit? with
    | some d =>
      let (digits, rest) := digitRun rest
      (d :: digits, rest)
    | none => ([], c :: rest)

def exponent? : Text → Option Int
  | [] => some 0
  | e :: rest =>
    if e = .char 'e' ∨ e = .char 'E' then
      let (negative, unsigned) := sign rest
      match digitRun unsigned with
      | ([], _) => none
      | (digits, []) =>
        let n := valueOf 10 digits
        some (if negative then -(n : Int) else n)
      | _ => none
    else none

def unsignedDecimal? (negative : Bool) (s : Text) : Option Binary64 := do
  let (whole, rest) := digitRun s
  let (fraction, rest) := match rest with
    | .char '.' :: rest => digitRun rest
    | rest => ([], rest)
  if whole.isEmpty && fraction.isEmpty then none
  else
    let e ← exponent? rest
    some (.ofDecimal negative (valueOf 10 (whole ++ fraction)) (e - fraction.length))

/-- An underscore may stand only between two digits; without it the numeral reads the same. -/
def dropUnderscores? (after : Bool) : Text → Option Text
  | [] => some []
  | .char '_' :: rest =>
    match rest with
    | c :: _ => if after && c.isAsciiDigit then dropUnderscores? false rest else none
    | [] => none
  | c :: rest => (dropUnderscores? c.isAsciiDigit rest).map (c :: ·)

def lowerAscii (c : CodePoint) : CodePoint :=
  match c with
  | .char c => .char c.toLower
  | c => c

def decimal (s : Text) : Except NumeralError Binary64 :=
  let (negative, unsigned) := sign (trim (s.map asciiDigit))
  let word := unsigned.map lowerAscii
  if word = "inf" ∨ word = "infinity" then .ok (.infinite negative)
  else if word = "nan" then .ok .nan
  else
    match dropUnderscores? false unsigned with
    | none => .error .malformed
    | some plain =>
      match unsignedDecimal? negative plain with
      | some x => .ok x
      | none => .error .malformed

end Numeral
end IndexCoverage
