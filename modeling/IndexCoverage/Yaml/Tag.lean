import IndexCoverage.Yaml.Moment

/-! What kind of value a node stands for: by its tag or, for plain text without
one, by its form. -/

namespace IndexCoverage.Yaml

inductive Tag where
  | null
  | bool
  | int
  | float
  | binary
  | timestamp
  | omap
  | pairs
  | set
  | str
  | seq
  | map
  /-- The key under which a mapping takes over the fields of others. -/
  | merge
  /-- The key of the value that stands for the whole mapping. -/
  | value
  | other
  deriving DecidableEq

namespace Tag

def coreLead : Text := "tag:yaml.org,2002:"

def core : List (Text × Tag) := [
  ("null", .null), ("bool", .bool), ("int", .int), ("float", .float), ("binary", .binary),
  ("timestamp", .timestamp), ("omap", .omap), ("pairs", .pairs), ("set", .set), ("str", .str),
  ("seq", .seq), ("map", .map), ("merge", .merge), ("value", .value)]

def ofName (name : Text) : Tag :=
  ((core.find? fun (word, _) => name = coreLead ++ word).map Prod.snd).getD .other

def boolWords : List String := [
  "yes", "Yes", "YES", "no", "No", "NO", "true", "True", "TRUE", "false", "False", "FALSE",
  "on", "On", "ON", "off", "Off", "OFF"]

def isDigitOrBar (c : Char) : Bool := c.isDigit || c = '_'

def unsigned : List Char → List Char
  | '+' :: rest => rest
  | '-' :: rest => rest
  | s => s

def splitColon (s : List Char) : List (List Char) :=
  s.foldr (fun c parts =>
    match parts with
    | part :: parts => if c = ':' then [] :: part :: parts else (c :: part) :: parts
    | [] => []) [[]]

def isSixtieth : List Char → Bool
  | [a] => a.isDigit
  | [a, b] => '0' ≤ a && a ≤ '5' && b.isDigit
  | _ => false

def allNonempty (test : Char → Bool) (s : List Char) : Bool := !s.isEmpty && s.all test

def isCount (least : Char) : List Char → Bool
  | c :: rest => least ≤ c && c.isDigit && rest.all isDigitOrBar
  | [] => false

def isSixties (least : Char) (s : List Char) : Bool :=
  match splitColon s with
  | first :: second :: more => isCount least first && (second :: more).all isSixtieth
  | _ => false

def isInt (s : List Char) : Bool :=
  let s := unsigned s
  let numeral := match s with
    | '0' :: 'b' :: digits => allNonempty (fun c => c = '0' || c = '1' || c = '_') digits
    | '0' :: 'x' :: digits =>
      allNonempty (fun c => ((CodePoint.char c).digitIn? 16).isSome || c = '_') digits
    | ['0'] => true
    | '0' :: digits => digits.all fun c => ('0' ≤ c && c ≤ '7') || c = '_'
    | s => isCount '1' s
  numeral || isSixties '1' s

def isExponent : List Char → Bool
  | [] => true
  | e :: sign :: digits =>
    (e = 'e' || e = 'E') && (sign = '+' || sign = '-') && allNonempty Char.isDigit digits
  | _ => false

def isFloat (s : List Char) : Bool :=
  let afterSign := unsigned s
  let whole := afterSign.takeWhile (· ≠ '.')
  match afterSign.dropWhile (· ≠ '.') with
  | '.' :: fraction =>
    let exponent := fraction.dropWhile isDigitOrBar
    if whole.isEmpty then
      ["inf", "Inf", "INF"].any (·.toList = fraction) ||
        (afterSign = s && (["nan", "NaN", "NAN"].any (·.toList = fraction) ||
          (fraction.head?.any Char.isDigit && isExponent exponent)))
    else
      (isCount '0' whole && isExponent exponent) ||
        (isSixties '0' whole && exponent.isEmpty)
  | _ => false

def dropLineFeed (s : List Char) : List Char :=
  if s.getLast? = some '\n' then s.dropLast else s

def ofPlain (text : Text) : Tag :=
  let chars? := text.mapM fun
    | .char c => some c
    | .lone _ => none
  match chars? with
  | none => .str
  | some [] => .null
  | some whole =>
    let s := dropLineFeed whole
    if boolWords.any (·.toList = s) then .bool
    else if isFloat s then .float
    else if isInt s then .int
    else if s = "<<".toList then .merge
    else if ["~", "null", "Null", "NULL"].any (·.toList = s) then .null
    else if Moment.isPlain s then .timestamp
    else if s = "=".toList then .value
    else if ["!", "&", "*"].any (·.toList = s) then .other
    else .str

end Tag
end IndexCoverage.Yaml
