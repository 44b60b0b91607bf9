import IndexCoverage.Proofs.Source.Opening
import Mathlib.Data.List.Chain

/-! The lexical grammar, by places in the input: which lists of parts divide it into
tokens. Every input has exactly one such list, and the scan finds it. -/

namespace IndexCoverage.Source

structure Extent where
  kind : Kind
  start : Nat
  stop : Nat
  deriving DecidableEq

def extentsFrom (offset : Nat) (tokens : List Token) : List Extent :=
  (placed offset tokens).map fun (start, token) =>
    ⟨token.kind, start, start + token.bytes.length⟩

def extents (input : Bytes) : List Extent := extentsFrom 0 (tokens input)

def Has (input : Bytes) (place : Nat) (b : UInt8) : Prop := input[place]? = some b

/-- What is looked for from `start` on is first found at a place before `limit`, and
`stop` is `width` bytes behind that place; or it is not found, and `stop` is the limit. -/
def Reaches (found : Nat → Prop) (start limit width stop : Nat) : Prop :=
  (∃ place, start ≤ place ∧ place < limit ∧ found place ∧
    (∀ i, start ≤ i → i < place → ¬found i) ∧ stop = place + width) ∨
  ((∀ i, start ≤ i → i < limit → ¬found i) ∧ stop = limit)

def LineEnd (input : Bytes) (start stop : Nat) : Prop :=
  Reaches (Has input · newline) start input.length 0 stop

/-- A place holds the second byte of a backslash pair, in a literal whose quote is at `start`. -/
def Escaped (input : Bytes) (start : Nat) : Nat → Prop
  | 0 => False
  | place + 1 => start < place ∧ Has input place backslash ∧ ¬Escaped input start place

def Begins (input : Bytes) (place : Nat) : Prop :=
  Has input place doubleQuote ∨ Has input place singleQuote ∨ Has input place backtick ∨
    Has input place slash ∧ (Has input (place + 1) slash ∨ Has input (place + 1) star)

namespace Extent

def IsLineComment (input : Bytes) (e : Extent) : Prop :=
  Has input e.start slash ∧ Has input (e.start + 1) slash ∧ LineEnd input e.start e.stop

def IsBlockComment (input : Bytes) (e : Extent) : Prop :=
  Has input e.start slash ∧ Has input (e.start + 1) star ∧
    Reaches (fun i => Has input i star ∧ Has input (i + 1) slash)
      (e.start + 2) input.length 2 e.stop

def IsQuoted (quote : UInt8) (input : Bytes) (e : Extent) : Prop :=
  Has input e.start quote ∧ ∃ lineEnd, LineEnd input e.start lineEnd ∧
    Reaches (fun i => Has input i quote ∧ ¬Escaped input e.start i) (e.start + 1) lineEnd 1 e.stop

def IsRaw (input : Bytes) (e : Extent) : Prop :=
  Has input e.start backtick ∧ Reaches (Has input · backtick) (e.start + 1) input.length 1 e.stop

def Fits (input : Bytes) (e : Extent) : Prop :=
  match e.kind with
  | .text => ∀ i, e.start ≤ i → i < e.stop → ¬Begins input i
  | .comment => e.IsLineComment input ∨ e.IsBlockComment input
  | .string => e.IsQuoted doubleQuote input
  | .char => e.IsQuoted singleQuote input
  | .rawString => e.IsRaw input

end Extent

/-- The extents are not empty and follow each other from `start` to `stop`. -/
def Tiles (stop : Nat) : Nat → List Extent → Prop
  | start, [] => start = stop
  | start, e :: rest => e.start = start ∧ e.start < e.stop ∧ e.stop ≤ stop ∧ Tiles stop e.stop rest

structure LexesFrom (input : Bytes) (start : Nat) (extents : List Extent) : Prop where
  tiles : Tiles input.length start extents
  apart : extents.IsChain fun a b => ¬(a.kind = .text ∧ b.kind = .text)
  fits : ∀ e ∈ extents, e.Fits input

def Lexes (input : Bytes) (extents : List Extent) : Prop := LexesFrom input 0 extents

theorem Has.eq {input : Bytes} {place : Nat} {a b : UInt8} (first : Has input place a)
    (second : Has input place b) : a = b := Option.some.inj (first.symm.trans second)

theorem Reaches.unique {found : Nat → Prop} {start limit width a b : Nat}
    (first : Reaches found start limit width a) (second : Reaches found start limit width b) :
    a = b := by
  rcases first with ⟨i, fromI, beforeI, foundI, noneI, rfl⟩ | ⟨none, rfl⟩
  · rcases second with ⟨j, fromJ, beforeJ, foundJ, noneJ, rfl⟩ | ⟨none, rfl⟩
    · rcases Nat.lt_trichotomy i j with lt | rfl | gt
      · exact absurd foundI (noneJ i fromI lt)
      · rfl
      · exact absurd foundJ (noneI j fromJ gt)
    · exact absurd foundI (none i fromI beforeI)
  · rcases second with ⟨j, fromJ, beforeJ, foundJ, -, rfl⟩ | ⟨-, rfl⟩
    · exact absurd foundJ (none j fromJ beforeJ)
    · rfl

def Ends (found : Nat → Prop) (start limit width stop : Nat) : Bool → Prop
  | true => ∃ place, start ≤ place ∧ place < limit ∧ found place ∧
      (∀ i, start ≤ i → i < place → ¬found i) ∧ stop = place + width
  | false => (∀ i, start ≤ i → i < limit → ¬found i) ∧ stop = limit

section Ends

variable {found : Nat → Prop} {start limit width stop : Nat} {closed : Bool}

theorem reaches_iff_ends :
    Reaches found start limit width stop ↔ ∃ closed, Ends found start limit width stop closed := by
  rw [Bool.exists_bool]
  exact or_comm

theorem Ends.reaches (h : Ends found start limit width stop closed) :
    Reaches found start limit width stop := reaches_iff_ends.mpr ⟨closed, h⟩

theorem Ends.here (h : found start) (inside : start < limit) :
    Ends found start limit width (start + width) true :=
  ⟨start, le_refl _, inside, h, by omega, rfl⟩

theorem Ends.nowhere (found : Nat → Prop) (limit width : Nat) :
    Ends found limit limit width limit false := ⟨by omega, rfl⟩

theorem ends_succ (none : ¬found start) :
    Ends found start limit width stop closed ↔ Ends found (start + 1) limit width stop closed := by
  have later {i : Nat} (h : start ≤ i) (foundI : found i) : start + 1 ≤ i :=
    Nat.lt_of_le_of_ne h fun same => none (same ▸ foundI)
  cases closed with
  | true =>
    constructor
    · rintro ⟨i, fromI, beforeI, foundI, noneI, eq⟩
      exact ⟨i, later fromI foundI, beforeI, foundI, fun j h => noneI j (by omega), eq⟩
    · rintro ⟨i, fromI, beforeI, foundI, noneI, eq⟩
      refine ⟨i, by omega, beforeI, foundI, fun j h lt foundJ => ?_, eq⟩
      exact noneI j (later h foundJ) lt foundJ
  | false =>
    constructor
    · rintro ⟨nowhere, eq⟩
      exact ⟨fun j h => nowhere j (by omega), eq⟩
    · rintro ⟨nowhere, eq⟩
      exact ⟨fun j h lt foundJ => nowhere j (later h foundJ) lt foundJ, eq⟩

theorem Ends.closed_eq_false_iff (h : Ends found start limit width stop closed) :
    closed = false ↔ ∀ i, start ≤ i → i < limit → ¬found i := by
  cases closed with
  | true =>
    obtain ⟨i, fromI, beforeI, foundI, -⟩ := h
    exact iff_of_false nofun fun none => none i fromI beforeI foundI
  | false => exact iff_of_true rfl h.1

theorem Reaches.here (h : found start) (inside : start < limit) :
    Reaches found start limit width (start + width) := (Ends.here h inside).reaches

theorem Reaches.nowhere (found : Nat → Prop) (limit width : Nat) :
    Reaches found limit limit width limit := (Ends.nowhere found limit width).reaches

theorem reaches_succ (none : ¬found start) :
    Reaches found start limit width stop ↔ Reaches found (start + 1) limit width stop := by
  simp only [reaches_iff_ends, ends_succ none]

end Ends

theorem lineEnd_succ {input : Bytes} {start stop : Nat} (none : ¬Has input start newline) :
    LineEnd input start stop ↔ LineEnd input (start + 1) stop := reaches_succ none

theorem Extent.IsQuoted.unique {quote : UInt8} {input : Bytes} {a b : Extent}
    (first : a.IsQuoted quote input) (second : b.IsQuoted quote input) (same : a.start = b.start) :
    a.stop = b.stop := by
  obtain ⟨-, m, lineA, reachA⟩ := first
  obtain ⟨-, n, lineB, reachB⟩ := second
  rw [same] at lineA reachA
  obtain rfl := lineA.unique lineB
  exact reachA.unique reachB

theorem Extent.IsLineComment.unique {input : Bytes} {a b : Extent} (first : a.IsLineComment input)
    (second : b.IsLineComment input) (same : a.start = b.start) : a.stop = b.stop := by
  have reachA := first.2.2
  rw [same] at reachA
  exact reachA.unique second.2.2

theorem Extent.IsBlockComment.unique {input : Bytes} {a b : Extent}
    (first : a.IsBlockComment input) (second : b.IsBlockComment input) (same : a.start = b.start) :
    a.stop = b.stop := by
  have reachA := first.2.2
  rw [same] at reachA
  exact reachA.unique second.2.2

theorem Extent.IsLineComment.not_block {input : Bytes} {a b : Extent}
    (first : a.IsLineComment input) (second : b.IsBlockComment input) (same : a.start = b.start) :
    False := by
  have next := first.2.1
  rw [same] at next
  exact absurd (next.eq second.2.1) (by decide)

theorem Extent.IsRaw.unique {input : Bytes} {a b : Extent} (first : a.IsRaw input)
    (second : b.IsRaw input) (same : a.start = b.start) : a.stop = b.stop := by
  have reachA := first.2
  rw [same] at reachA
  exact reachA.unique second.2

def Kind.firstByte? : Kind → Option UInt8
  | text => none
  | comment => some slash
  | string => some doubleQuote
  | char => some singleQuote
  | rawString => some backtick

theorem Kind.eq_of_firstByte? {a b : Kind} {first : UInt8} (ha : a.firstByte? = some first)
    (hb : b.firstByte? = some first) : a = b := by
  rw [← hb] at ha
  cases a <;> cases b <;> first | rfl | exact absurd ha (by decide)

theorem Extent.Fits.has_firstByte {input : Bytes} {e : Extent} (fits : e.Fits input)
    (notText : e.kind ≠ .text) : ∃ b, e.kind.firstByte? = some b ∧ Has input e.start b := by
  obtain ⟨kind, start, stop⟩ := e
  cases kind with
  | text => exact absurd rfl notText
  | comment => exact ⟨slash, rfl, fits.elim (·.1) (·.1)⟩
  | string => exact ⟨doubleQuote, rfl, fits.1⟩
  | char => exact ⟨singleQuote, rfl, fits.1⟩
  | rawString => exact ⟨backtick, rfl, fits.1⟩

theorem Extent.Fits.begins {input : Bytes} {e : Extent} (fits : e.Fits input)
    (notText : e.kind ≠ .text) : Begins input e.start := by
  obtain ⟨kind, start, stop⟩ := e
  cases kind with
  | text => exact absurd rfl notText
  | comment =>
    rcases fits with ⟨first, second, -⟩ | ⟨first, second, -⟩
    · exact .inr (.inr (.inr ⟨first, .inl second⟩))
    · exact .inr (.inr (.inr ⟨first, .inr second⟩))
  | string => exact .inl fits.1
  | char => exact .inr (.inl fits.1)
  | rawString => exact .inr (.inr (.inl fits.1))

theorem Extent.Fits.unique {input : Bytes} {a b : Extent} (fitsA : a.Fits input)
    (fitsB : b.Fits input) (same : a.start = b.start) (notTextA : a.kind ≠ .text)
    (notTextB : b.kind ≠ .text) : a = b := by
  obtain ⟨first, kindA, hasA⟩ := fitsA.has_firstByte notTextA
  obtain ⟨second, kindB, hasB⟩ := fitsB.has_firstByte notTextB
  rw [same] at hasA
  obtain rfl := hasA.eq hasB
  have sameKind := Kind.eq_of_firstByte? kindA kindB
  obtain ⟨kind, start, stop⟩ := a
  obtain ⟨kind', start', stop'⟩ := b
  obtain rfl : kind = kind' := sameKind
  obtain rfl : start = start' := same
  suffices sameStop : stop = stop' by rw [sameStop]
  cases kind with
  | text => exact absurd rfl notTextA
  | comment =>
    rcases fitsA with lineA | blockA <;> rcases fitsB with lineB | blockB
    · exact lineA.unique lineB rfl
    · exact (lineA.not_block blockB rfl).elim
    · exact (lineB.not_block blockA rfl).elim
    · exact blockA.unique blockB rfl
  | string => exact Extent.IsQuoted.unique fitsA fitsB rfl
  | char => exact Extent.IsQuoted.unique fitsA fitsB rfl
  | rawString => exact Extent.IsRaw.unique fitsA fitsB rfl

namespace LexesFrom

variable {input : Bytes} {start : Nat} {e : Extent} {rest : List Extent}

theorem tail (h : LexesFrom input start (e :: rest)) : LexesFrom input e.stop rest where
  tiles := h.tiles.2.2.2
  apart := h.apart.tail
  fits f inside := h.fits f (List.mem_cons_of_mem _ inside)

theorem begins_of_text (h : LexesFrom input start (e :: rest)) (isText : e.kind = .text)
    (inside : e.stop < input.length) : Begins input e.stop := by
  cases rest with
  | nil =>
    have ends : e.stop = input.length := h.tiles.2.2.2
    omega
  | cons next more =>
    have sameStart : next.start = e.stop := h.tiles.2.2.2.1
    have notText : next.kind ≠ .text := fun nextText =>
      (List.isChain_cons_cons.mp h.apart).1 ⟨isText, nextText⟩
    rw [← sameStart]
    exact (h.fits next (by simp)).begins notText

theorem stop_le_of_texts {f : Extent} {others : List Extent}
    (first : LexesFrom input start (e :: rest)) (second : LexesFrom input start (f :: others))
    (isText : e.kind = .text) (otherText : f.kind = .text) : f.stop ≤ e.stop := by
  by_contra shorter
  have bound : f.stop ≤ input.length := second.tiles.2.2.1
  have begins := first.begins_of_text isText (by omega)
  have fits : f.Fits input := second.fits f (by simp)
  rw [Extent.Fits, otherText] at fits
  have after : f.start ≤ e.stop := by
    have startE : e.start = start := first.tiles.1
    have startF : f.start = start := second.tiles.1
    have nonempty : e.start < e.stop := first.tiles.2.1
    omega
  exact fits e.stop after (by omega) begins

theorem begins_iff (h : LexesFrom input start (e :: rest)) :
    Begins input start ↔ e.kind ≠ .text := by
  have startE : e.start = start := h.tiles.1
  have fits : e.Fits input := h.fits e (by simp)
  rw [← startE]
  constructor
  · intro begins isText
    rw [Extent.Fits, isText] at fits
    exact fits e.start (le_refl _) h.tiles.2.1 begins
  · exact fits.begins

theorem head_unique {f : Extent} {others : List Extent}
    (first : LexesFrom input start (e :: rest)) (second : LexesFrom input start (f :: others)) :
    e = f := by
  have startE : e.start = start := first.tiles.1
  have startF : f.start = start := second.tiles.1
  by_cases isText : e.kind = .text
  · have otherText : f.kind = .text := by
      by_contra notText
      exact first.begins_iff.mp (second.begins_iff.mpr notText) isText
    have sameStop : e.stop = f.stop :=
      le_antisymm (second.stop_le_of_texts first otherText isText)
        (first.stop_le_of_texts second isText otherText)
    obtain ⟨kind, start', stop⟩ := e
    obtain ⟨kind', start'', stop'⟩ := f
    simp_all
  · have notText : f.kind ≠ .text := second.begins_iff.mp (first.begins_iff.mpr isText)
    exact (first.fits e (by simp)).unique (second.fits f (by simp)) (startE.trans startF.symm)
      isText notText

theorem unique {xs ys : List Extent} (first : LexesFrom input start xs)
    (second : LexesFrom input start ys) : xs = ys := by
  induction xs generalizing start ys with
  | nil =>
    cases ys with
    | nil => rfl
    | cons f others =>
      obtain ⟨startF, nonempty, bound, -⟩ := second.tiles
      have ends : start = input.length := first.tiles
      omega
  | cons e rest ih =>
    cases ys with
    | nil =>
      obtain ⟨startE, nonempty, bound, -⟩ := first.tiles
      have ends : start = input.length := second.tiles
      omega
    | cons f others =>
      obtain rfl := first.head_unique second
      rw [ih first.tail second.tail]

end LexesFrom
end IndexCoverage.Source
