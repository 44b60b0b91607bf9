import IndexCoverage.Text.CodePoint

/-! Paths as they are written: an anchor and the parts between slashes. Empty
parts and single dots are dropped; two dots stay, since what they mean depends on
the links before them. Exactly two slashes in front are not the same as one. -/

namespace IndexCoverage

inductive Anchor where
  | relative
  | root
  | doubleRoot
  deriving DecidableEq

structure Path where
  anchor : Anchor
  parts : List Text
  deriving DecidableEq

namespace Path

def slash : CodePoint := .char '/'

def dot : Text := "."
def dotDot : Text := ".."

def partsOf (s : Text) : List Text :=
  (Text.splitOn slash s).filter fun part => !part.isEmpty && part ≠ dot

theorem of_mem_partsOf {s part : Text} (h : part ∈ partsOf s) :
    part ≠ [] ∧ part ≠ dot ∧ slash ∉ part := by
  obtain ⟨inside, counts⟩ := List.mem_filter.mp h
  simp only [Bool.and_eq_true, Bool.not_eq_true', List.isEmpty_eq_false_iff, decide_eq_true_eq]
    at counts
  exact ⟨counts.1, counts.2, Text.not_mem_of_mem_splitOn inside⟩

def anchorOf (s : Text) : Anchor :=
  match (s.takeWhile (· = slash)).length with
  | 0 => .relative
  | 2 => .doubleRoot
  | _ => .root

def ofText (s : Text) : Path := ⟨anchorOf s, partsOf s⟩

def Anchor.text : Anchor → Text
  | .relative => ""
  | .root => "/"
  | .doubleRoot => "//"

def text (path : Path) : Text :=
  if path.anchor = .relative ∧ path.parts = [] then dot
  else Anchor.text path.anchor ++ List.intercalate [slash] path.parts

def isAbsolute (path : Path) : Bool := path.anchor ≠ .relative

def join (base path : Path) : Path :=
  if path.isAbsolute then path else ⟨base.anchor, base.parts ++ path.parts⟩

def child (path : Path) (name : Text) : Path := ⟨path.anchor, path.parts ++ [name]⟩

def parent (path : Path) : Path := ⟨path.anchor, path.parts.dropLast⟩

def up (path : Path) : Path :=
  let stays := path.parts.getLast?.all (· = dotDot)
  if path.anchor = .relative ∧ stays then path.child dotDot else path.parent

def name (path : Path) : Text := path.parts.getLast?.getD []

def ofPlace (place : List Text) : Path := ⟨.root, place⟩

theorem ofText_text_ofPlace {place : List Text}
    (counts : ∀ part ∈ place, part.isEmpty = false ∧ part ≠ dot ∧ slash ∉ part) :
    ofText (ofPlace place).text = ofPlace place := by
  have written : (ofPlace place).text = slash :: List.intercalate [slash] place := rfl
  rw [written]
  cases place with
  | nil => rfl
  | cons part parts =>
    have kept : (part :: parts).filter (fun other => !other.isEmpty && other ≠ dot) =
        part :: parts := by
      refine List.filter_eq_self.mpr fun other inside => ?_
      obtain ⟨nonempty, notDot, -⟩ := counts other inside
      simp [nonempty, notDot]
    have parted : partsOf (slash :: List.intercalate [slash] (part :: parts)) = part :: parts := by
      rw [partsOf, Text.splitOn, if_pos rfl,
        Text.splitOn_intercalate fun other inside => (counts other inside).2.2]
      exact kept
    have anchored : anchorOf (slash :: List.intercalate [slash] (part :: parts)) = .root := by
      obtain ⟨nonempty, -, whole⟩ := counts part (List.mem_cons_self ..)
      cases part with
      | nil => simp at nonempty
      | cons c rest =>
        have other : c ≠ slash := fun same => whole (same ▸ List.mem_cons_self ..)
        have next : List.intercalate [slash] ((c :: rest) :: parts) =
            c :: List.intercalate [slash] (rest :: parts) := by
          cases parts <;> simp [List.intercalate]
        rw [anchorOf, next, List.takeWhile_cons_of_pos (by simp),
          List.takeWhile_cons_of_neg (by simpa using other)]
        rfl
    rw [ofText, parted, anchored, ofPlace]

end Path
end IndexCoverage
