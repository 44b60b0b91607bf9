import IndexCoverage.Json.Shown
import IndexCoverage.Log.Place
import IndexCoverage.Number.Rounded

/-! Messages with places for values. Each value fills one place, in order, and none
may be left over. One value that is an object with fields may stand for all of them:
a place with a key takes the field of that name, as often as it is asked for. A
template without values is the message itself. -/

namespace IndexCoverage.Template

def maxWidth : Nat := Nat.pow 2 20

def maxLength : Nat := Nat.pow 2 31 - 1

/-- A value in its place, before it is filled up: a sign, the mark of a base, and the rest. -/
structure Shown where
  sign : Text := []
  mark : Text := []
  body : Text
  isNumber : Bool := false

namespace Shown

def ofText (body : Text) : Shown := { body }

def ofNumber (flags : Flags) (negative : Bool) (mark body : Text) : Shown where
  sign := if negative then "-" else if flags.plus then "+" else if flags.blank then " " else ""
  mark
  body
  isNumber := true

/-- Zeros go between the mark and the rest of a number, blanks around the whole. -/
def padded (flags : Flags) (width : Nat) (shown : Shown) : Text :=
  let lead := shown.sign ++ shown.mark
  let fill := List.replicate (width - (lead ++ shown.body).length)
  if flags.left then lead ++ shown.body ++ fill (.char ' ')
  else if flags.zeros && shown.isNumber then lead ++ fill (.char '0') ++ shown.body
  else fill (.char ' ') ++ lead ++ shown.body

end Shown

def integer? : Json.Value → Option Int
  | .int n => some n
  | .bool b => some (if b then 1 else 0)
  | _ => none

def wholePart? : Json.Value → Option Int
  | .float (.finite negative units) =>
    let n : Int := units / Binary64.unitsPerOne
    some (if negative then -n else n)
  | value => integer? value

def double? : Json.Value → Option Binary64
  | .float x => some x
  | value => (integer? value).bind Binary64.ofInt?

def inCase (upper : Bool) (digits : List Char) : Text :=
  (if upper then digits.map Char.toUpper else digits).map .char

def shownInt (flags : Flags) (base : Nat) (mark : String) (upper : Bool) (least : Nat) (n : Int) :
    Shown :=
  let digits := Nat.toDigits base n.natAbs
  Shown.ofNumber flags (n < 0) (if flags.full then inCase upper mark.toList else [])
    (inCase upper (List.replicate (least - digits.length) '0' ++ digits))

def shownDouble (flags : Flags) (upper : Bool) (write : Nat → List Char) (x : Binary64) : Shown :=
  match x with
  | .finite negative units => Shown.ofNumber flags negative [] (inCase upper (write units))
  | .infinite negative => Shown.ofNumber flags negative [] (inCase upper ['i', 'n', 'f'])
  | .nan => Shown.ofNumber flags false [] (inCase upper ['n', 'a', 'n'])

def asciiText (s : Text) : Text :=
  s.flatMap fun c => if c.isAscii then [c] else Text.escapePoint c

def character? : Json.Value → Option CodePoint
  | .str [c] => some c
  | value =>
    match integer? value with
    | some (.ofNat n) => CodePoint.ofNat? n
    | _ => none

def shown? (flags : Flags) (form : Form) (precision : Option Nat) (value : Json.Value) :
    Option Shown :=
  let cutOff (s : Text) := Shown.ofText (precision.elim s s.take)
  let least := precision.getD 0
  let places := precision.getD 6
  match form with
  | .text => some (cutOff value.shown)
  | .quoted => some (cutOff (Json.showNested value))
  | .ascii => some (cutOff (asciiText (Json.showNested value)))
  | .character => (character? value).map fun c => Shown.ofText [c]
  | .decimal => (wholePart? value).map (shownInt flags 10 "" false least)
  | .octal => (integer? value).map (shownInt flags 8 "0o" false least)
  | .hex upper => (integer? value).map (shownInt flags 16 "0x" upper least)
  | .exponent upper =>
    (double? value).map (shownDouble flags upper (Binary64.withExponent flags.full places))
  | .fixed upper =>
    (double? value).map (shownDouble flags upper (Binary64.fixed flags.full places))
  | .general upper =>
    (double? value).map (shownDouble flags upper (Binary64.general flags.full places))

/-- The largest precision: a number is filled up to it, a text only cut off. -/
def Form.maxPrecision : Form → Nat
  | .text | .quoted | .ascii | .character => maxLength
  | _ => maxWidth

abbrev Filling := StateT (List Json.Value) Option

def next : Filling Json.Value
  | [] => none
  | value :: rest => some (value, rest)

/-- The number of a measure; one that is asked for may be negative. -/
def Measure.number : Measure → Filling Int
  | .given n => return n
  | .asked => do liftM (integer? (← next))

def width (measure : Option Measure) : Filling (Nat × Bool) := do
  let n ← (measure.getD (.given 0)).number
  if maxWidth < n.natAbs then failure
  return (n.natAbs, n < 0)

def precisionOf (form : Form) : Option Measure → Filling (Option Nat)
  | none => return none
  | some measure => do
    let n ← measure.number
    if form.maxPrecision < n.toNat || maxLength + 1 < n.natAbs then failure
    return some n.toNat

def fillPlace (fields : List (Text × Json.Value)) (place : Place) : Filling Text := do
  if let some key := place.key then
    let value ← liftM (Json.get? key fields)
    set [value]
  let (width, left) ← width place.width
  let flags := { place.flags with left := place.flags.left || left }
  let precision ← precisionOf place.form place.precision
  let shown ← liftM (shown? flags place.form precision (← next))
  return shown.padded flags width

def fill (fields : List (Text × Json.Value)) : List Piece → Filling Text
  | [] => return []
  | .literal c :: rest => return c :: (← fill fields rest)
  | .place place :: rest => return (← fillPlace fields place) ++ (← fill fields rest)

def message (template : Text) (values : List Json.Value) : Option Text :=
  match values with
  | [] => some template
  | [.obj (field :: fields)] => do
    let (text, _) ← (fill (field :: fields) (← pieces? template)).run values
    return text
  | _ => do
    let (text, left) ← (fill [] (← pieces? template)).run values
    if left.isEmpty then some text else none

end IndexCoverage.Template
