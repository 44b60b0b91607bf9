import IndexCoverage.Number.Numeral

/-! Dates and times as YAML writes them. Reading only looks at the form; whether
there is such a day or time is another question. -/

namespace IndexCoverage.Yaml

structure Clock where
  hour : Nat
  minute : Nat
  second : Nat
  deriving DecidableEq

structure Zone where
  hours : Nat
  minutes : Nat
  deriving DecidableEq

structure Moment where
  year : Nat
  month : Nat
  day : Nat
  clock : Option Clock
  zone : Option Zone
  deriving DecidableEq

namespace Moment

def isLeap (year : Nat) : Bool := (year % 4 = 0 && year % 100 ≠ 0) || year % 400 = 0

def daysIn (year month : Nat) : Nat :=
  if month = 2 then
    if isLeap year then 29 else 28
  else if month = 4 ∨ month = 6 ∨ month = 9 ∨ month = 11 then 30
  else 31

def exists? (m : Moment) : Bool :=
  1 ≤ m.year && 1 ≤ m.month && m.month ≤ 12 && 1 ≤ m.day && m.day ≤ daysIn m.year m.month &&
    m.clock.all (fun c => c.hour ≤ 23 && c.minute ≤ 59 && c.second ≤ 59) &&
    m.zone.all (fun z => z.hours * 60 + z.minutes < 24 * 60)

def digit? (c : Char) : Option Nat := (CodePoint.char c).digit?

def two? : List Char → Option (Nat × List Char)
  | a :: b :: rest => do
    let a ← digit? a
    let b ← digit? b
    some (a * 10 + b, rest)
  | _ => none

def oneOrTwo? (s : List Char) : Option (Nat × List Char) :=
  match two? s with
  | some found => some found
  | none =>
    match s with
    | a :: rest => (digit? a).map fun a => (a, rest)
    | [] => none

def after? (mark : Char) : List Char → Option (List Char)
  | c :: rest => if c = mark then some rest else none
  | [] => none

def isBlank (c : Char) : Bool := c = ' ' || c = '\t'

def zone? (s : List Char) : Option (Option Zone) :=
  if s.isEmpty then some none
  else
    match s.dropWhile isBlank with
    | ['Z'] => some none
    | sign :: rest => do
      guard (sign = '+' ∨ sign = '-')
      let (hours, rest) ← oneOrTwo? rest
      if rest.isEmpty then some (some ⟨hours, 0⟩)
      else do
        let (minutes, rest) ← two? (← after? ':' rest)
        guard rest.isEmpty
        some (some ⟨hours, minutes⟩)
    | [] => none

def clock? (s : List Char) : Option (Clock × Option Zone) := do
  let (hour, rest) ← oneOrTwo? s
  let (minute, rest) ← two? (← after? ':' rest)
  let (second, rest) ← two? (← after? ':' rest)
  let rest := match rest with
    | '.' :: rest => rest.dropWhile Char.isDigit
    | rest => rest
  let zone ← zone? rest
  some (⟨hour, minute, second⟩, zone)

def time? (s : List Char) : Option (List Char) :=
  match s with
  | 'T' :: rest => some rest
  | 't' :: rest => some rest
  | c :: rest => if isBlank c then some (rest.dropWhile isBlank) else none
  | [] => none

def read? (s : List Char) : Option Moment := do
  let (century, rest) ← two? s
  let (year, rest) ← two? rest
  let (month, rest) ← oneOrTwo? (← after? '-' rest)
  let (day, rest) ← oneOrTwo? (← after? '-' rest)
  let year := century * 100 + year
  if rest.isEmpty then some ⟨year, month, day, none, none⟩
  else do
    let (clock, zone) ← clock? (← time? rest)
    some ⟨year, month, day, some clock, zone⟩

/-- Is this a moment without being told? A date alone has to be written in full. -/
def isPlain (s : List Char) : Bool :=
  (read? s).any fun m => m.clock.isSome || s.length = 10

end Moment
end IndexCoverage.Yaml
