/-! Text is a list of code points. A code point is a character or a surrogate
that stands alone: escapes in JSON and YAML can write one, although no encoded
file holds it. Order is by number. Nothing here knows about encodings. -/

namespace IndexCoverage

inductive CodePoint where
  | char (c : Char)
  | lone (half : Fin 0x800)
  deriving DecidableEq

namespace CodePoint

def value : CodePoint → Nat
  | char c => c.toNat
  | lone half => 0xD800 + half

def ofNat? (n : Nat) : Option CodePoint :=
  if lone? : 0xD800 ≤ n ∧ n < 0xE000 then
    some (lone ⟨n - 0xD800, by omega⟩)
  else if n < 0x110000 then
    some (char (Char.ofNat n))
  else
    none

instance : Coe Char CodePoint := ⟨char⟩

instance : Inhabited CodePoint := ⟨char ' '⟩

theorem value_inj {a b : CodePoint} : a.value = b.value ↔ a = b := by
  constructor
  · intro same
    match a, b, same with
    | char c, char d, same => rw [Char.toNat_inj.mp same]
    | lone x, lone y, same =>
      simp only [value] at same
      rw [Fin.ext (by omega : x.val = y.val)]
    | char c, lone y, same =>
      have valid := c.valid
      have := y.isLt
      simp only [value, Char.toNat] at same
      simp only [UInt32.isValidChar, Nat.isValidChar] at valid
      change c.val.toNat < 55296 ∨ 57343 < c.val.toNat ∧ c.val.toNat < 1114112 at valid
      omega
    | lone x, char d, same =>
      have valid := d.valid
      have := x.isLt
      simp only [value, Char.toNat] at same
      simp only [UInt32.isValidChar, Nat.isValidChar] at valid
      change d.val.toNat < 55296 ∨ 57343 < d.val.toNat ∧ d.val.toNat < 1114112 at valid
      omega
  · rintro rfl
    rfl

def digit? (c : CodePoint) : Option Nat :=
  if 48 ≤ c.value ∧ c.value ≤ 57 then some (c.value - 48) else none

def digitIn? (base : Nat) (c : CodePoint) : Option Nat :=
  let n := c.value
  let found :=
    if 48 ≤ n ∧ n ≤ 57 then some (n - 48)
    else if 65 ≤ n ∧ n ≤ 90 then some (n - 55)
    else if 97 ≤ n ∧ n ≤ 122 then some (n - 87)
    else none
  found.filter (· < base)

def isAscii (c : CodePoint) : Bool := c.value < 128

def isAsciiLetter (c : CodePoint) : Bool :=
  (65 ≤ c.value && c.value ≤ 90) || (97 ≤ c.value && c.value ≤ 122)

def isAsciiDigit (c : CodePoint) : Bool := c.digit?.isSome

end CodePoint

abbrev Text := List CodePoint

namespace Text

def ofString (s : String) : Text := s.toList.map .char

instance : Coe String Text := ⟨ofString⟩

def before : Text → Text → Bool
  | _, [] => false
  | [], _ :: _ => true
  | a :: s, b :: t => a.value < b.value || (a = b && before s t)

def atMost (s t : Text) : Bool := !before t s

def join (pieces : List Text) : Text := pieces.flatten

def ofNat (n : Nat) : Text := (Nat.toDigits 10 n).map .char

def ofInt : Int → Text
  | .ofNat n => ofNat n
  | .negSucc n => CodePoint.char '-' :: ofNat (n + 1)

def splitOn (separator : CodePoint) : Text → List Text
  | [] => [[]]
  | c :: rest =>
    if c = separator then
      [] :: splitOn separator rest
    else
      match splitOn separator rest with
      | [] => [[c]]
      | part :: parts => (c :: part) :: parts

theorem splitOn_ne_nil (separator : CodePoint) (s : Text) : splitOn separator s ≠ [] := by
  fun_cases splitOn separator s <;> simp_all

theorem intercalate_splitOn (separator : CodePoint) (s : Text) :
    List.intercalate [separator] (splitOn separator s) = s := by
  fun_induction splitOn separator s with
  | case1 => rfl
  | case2 rest ih =>
    cases parts : splitOn separator rest with
    | nil => exact absurd parts (splitOn_ne_nil _ _)
    | cons part parts' => simp_all [List.intercalate]
  | case3 c rest _ parts => exact absurd parts (splitOn_ne_nil _ _)
  | case4 c rest _ part parts eq ih =>
    rw [eq] at ih
    cases parts <;> simp_all [List.intercalate]

theorem not_mem_of_mem_splitOn {separator : CodePoint} {s part : Text}
    (h : part ∈ splitOn separator s) : separator ∉ part := by
  fun_induction splitOn separator s generalizing part with
  | case1 => simp_all
  | case2 rest ih =>
    rcases List.mem_cons.mp h with rfl | h
    · exact List.not_mem_nil
    · exact ih h
  | case3 c rest _ parts => exact absurd parts (splitOn_ne_nil _ _)
  | case4 c rest different first parts eq ih =>
    rcases List.mem_cons.mp h with rfl | h
    · have absent : separator ∉ first := ih (by simp [eq])
      simp [absent, Ne.symm different]
    · exact ih (by simp [eq, h])

theorem splitOn_append_cons (separator : CodePoint) (s rest : Text) :
    splitOn separator (s ++ separator :: rest) = splitOn separator s ++ splitOn separator rest := by
  induction s with
  | nil => simp [splitOn]
  | cons c s ih =>
    rw [List.cons_append, splitOn, splitOn]
    by_cases same : c = separator
    · rw [if_pos same, if_pos same, ih, List.cons_append]
    · rw [if_neg same, if_neg same, ih]
      cases parts : splitOn separator s with
      | nil => exact absurd parts (splitOn_ne_nil _ _)
      | cons part parts => rfl

theorem splitOn_of_notMem {separator : CodePoint} {s : Text} (h : separator ∉ s) :
    splitOn separator s = [s] := by
  induction s with
  | nil => rfl
  | cons c s ih =>
    obtain ⟨other, absent⟩ := not_or.mp (mt List.mem_cons.mpr h)
    rw [splitOn, if_neg (Ne.symm other), ih absent]

theorem splitOn_intercalate {separator : CodePoint} {part : Text} {parts : List Text}
    (whole : ∀ other ∈ part :: parts, separator ∉ other) :
    splitOn separator (List.intercalate [separator] (part :: parts)) = part :: parts := by
  induction parts generalizing part with
  | nil =>
    have single : List.intercalate [separator] [part] = part := by simp [List.intercalate]
    rw [single, splitOn_of_notMem (whole part (List.mem_singleton_self _))]
  | cons next parts ih =>
    have split : List.intercalate [separator] (part :: next :: parts) =
        part ++ separator :: List.intercalate [separator] (next :: parts) := by
      simp [List.intercalate]
    rw [split, splitOn_append_cons, splitOn_of_notMem (whole part (List.mem_cons_self ..)),
      ih fun other inside => whole other (List.mem_cons_of_mem _ inside), List.singleton_append]

def cut (separator : CodePoint) : Text → Text × Option Text
  | [] => ([], none)
  | c :: rest =>
    if c = separator then
      ([], some rest)
    else
      let (before, after) := cut separator rest
      (c :: before, after)

def cutLast (separator : CodePoint) (s : Text) : Option Text × Text :=
  let (behind, front) := cut separator s.reverse
  (front.map List.reverse, behind.reverse)

def startsWith (s lead : Text) : Bool := lead.isPrefixOf s

def endsWith (s tail : Text) : Bool := tail.isSuffixOf s

def dropEndWhile (test : CodePoint → Bool) (s : Text) : Text :=
  (s.reverse.dropWhile test).reverse

def isAscii (s : Text) : Bool := s.all CodePoint.isAscii

end Text
end IndexCoverage
