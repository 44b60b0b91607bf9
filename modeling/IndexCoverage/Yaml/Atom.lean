import IndexCoverage.Failure
import IndexCoverage.Text.Encoding
import IndexCoverage.Text.LowerCase
import IndexCoverage.Yaml.Tag

/-! The value of a scalar: its text, read as its tag says. -/

namespace IndexCoverage.Yaml

inductive Atom where
  | null
  | bool (b : Bool)
  | int (n : Int)
  | float (x : Binary64)
  | str (s : Text)
  | bytes (data : Bytes)
  | moment (m : Moment)
  deriving DecidableEq

namespace Atom

def truth? (text : Text) : Except Fault Bool :=
  let word := text.lower
  if word = "yes" ∨ word = "true" ∨ word = "on" then .ok true
  else if word = "no" ∨ word = "false" ∨ word = "off" then .ok false
  else .error .truthWord

def dropBars (text : Text) : Text := text.filter (· ≠ .char '_')

def signed (text : Text) : Except Fault (Bool × Text) :=
  if text.isEmpty then .error .noDigits else .ok (Numeral.sign text)

def integer (base : Nat) (text : Text) : Except Fault Int :=
  match Numeral.int base text with
  | .ok n => .ok n
  | .error _ => .error .numeral

def real (text : Text) : Except Fault Binary64 :=
  match Numeral.decimal text with
  | .ok x => .ok x
  | .error _ => .error .numeral

def natural (text : Text) : Except Fault Int := do
  match text with
  | [] => throw .noDigits
  | .char '0' :: .char 'b' :: digits => integer 2 digits
  | .char '0' :: .char 'x' :: digits => integer 16 digits
  | [.char '0'] => return 0
  | .char '0' :: digits => integer 8 (.char '0' :: digits)
  | digits =>
    let parts ← (Text.splitOn ':' digits).mapM (integer 10)
    return parts.foldl (fun n part => n * 60 + part) 0

def int? (text : Text) : Except Fault Int := do
  let (negative, rest) ← signed (dropBars text)
  let n ← natural rest
  return if negative then -n else n

def sumSixties (base : Int) (sum : Binary64) : List Binary64 → Except Fault Binary64
  | [] => .ok sum
  | part :: parts =>
    match Binary64.ofInt? base with
    | some factor => sumSixties (base * 60) (sum.add (part.mul factor)) parts
    | none => .error .overflow

def magnitude (text : Text) : Except Fault Binary64 := do
  if text = ".inf" then return .infinite false
  if text = ".nan" then return .nan
  match Text.splitOn ':' text with
  | [one] => real one
  | parts =>
    let parts ← parts.mapM real
    sumSixties 1 (.finite false 0) parts.reverse

def float? (text : Text) : Except Fault Binary64 := do
  let (negative, rest) ← signed (dropBars text).lower
  let x ← magnitude rest
  return if negative then x.neg else x

def base64Digit? (c : Char) : Option Nat :=
  let n := c.toNat
  if 65 ≤ n ∧ n ≤ 90 then some (n - 65)
  else if 97 ≤ n ∧ n ≤ 122 then some (n - 71)
  else if 48 ≤ n ∧ n ≤ 57 then some (n + 4)
  else if c = '+' then some 62
  else if c = '/' then some 63
  else none

/-- Bytes in base 64, of which `count` digits of a group of four have been read,
with `left` not used up, and `pads` signs of padding after them. Other characters
do not count, and nothing after a full group's padding does. -/
def base64 (count left pads : Nat) : List Char → Option Bytes
  | [] => if count = 0 then some [] else none
  | c :: rest =>
    if c = '=' then
      if 2 ≤ count then
        if 4 ≤ count + pads + 1 then some [] else base64 count left (pads + 1) rest
      else base64 count left pads rest
    else
      match base64Digit? c with
      | none => base64 count left pads rest
      | some digit =>
        if count = 0 then base64 1 digit 0 rest
        else if count = 1 then
          (base64 2 (digit % 16) 0 rest).map (UInt8.ofNat (left * 4 + digit / 16) :: ·)
        else if count = 2 then
          (base64 3 (digit % 4) 0 rest).map (UInt8.ofNat (left * 16 + digit / 4) :: ·)
        else
          (base64 0 0 0 rest).map (UInt8.ofNat (left * 64 + digit) :: ·)

def chars? (text : Text) : Option (List Char) :=
  text.mapM fun
    | .char c => some c
    | .lone _ => none

def bytes? (text : Text) : Except Fault Bytes :=
  if text.isAscii then
    match (chars? text).bind (base64 0 0 0) with
    | some data => .ok data
    | none => .error .yaml
  else .error .yaml

def moment? (text : Text) : Except Fault Moment :=
  match (chars? text).bind fun s => Moment.read? (Tag.dropLineFeed s) with
  | none => .error .dateForm
  | some m => if m.exists? then .ok m else .error .date

def read (tag : Tag) (text : Text) : Except Fault Atom :=
  match tag with
  | .null => .ok Atom.null
  | .bool => (truth? text).map .bool
  | .int => (int? text).map .int
  | .float => (float? text).map .float
  | .binary => (bytes? text).map .bytes
  | .timestamp => (moment? text).map .moment
  | .str => .ok (.str text)
  | _ => .error .yaml

end Atom
end IndexCoverage.Yaml
