import IndexCoverage.Plan.Rule
import IndexCoverage.Proofs.Text.Cutting
import Mathlib.Data.List.Basic

/-! Where names lead in a store, and where the targets of units do. A name is refused exactly if it
starts at the top or has a component that leads back; any other leads to what its components say,
seen from the root. So units have one path exactly if the components of their targets are the same:
those of the name, and those of the type with the suffix. -/

namespace IndexCoverage

theorem Path.isAbsolute_ofText_iff {s : Text} :
    (ofText s).isAbsolute = true ↔ s.head? = some slash := by
  cases s with
  | nil => decide
  | cons c rest =>
    by_cases first : c = slash
    · subst first
      have anchored : anchorOf (slash :: rest) ≠ .relative := by
        rw [anchorOf, List.takeWhile_cons_of_pos (by simp), List.length_cons]
        split <;> simp_all
      simp [isAbsolute, ofText, anchored]
    · have relative : anchorOf (c :: rest) = .relative := by
        rw [anchorOf, List.takeWhile_cons_of_neg (by simpa using first)]
        rfl
      simp [isAbsolute, ofText, relative, first]

namespace Store

def components (name : Text) : List Text := Text.splitOn Path.slash (withSlashes name)

/-- The name starts at the top, or one of its components leads back. -/
def Escapes (name : Text) : Prop :=
  (withSlashes name).head? = some Path.slash ∨ Path.dotDot ∈ components name

instance (name : Text) : Decidable (Escapes name) := inferInstanceAs (Decidable (_ ∨ _))

/-- The root, and behind it the components of a name, without those that say nothing. -/
def pathOf (store : Store) (name : Text) : Path where
  anchor := store.root.anchor
  parts := store.root.parts ++ (components name).filter fun part => part ≠ [] ∧ part ≠ Path.dot

variable {store : Store} {name : Text}

theorem partsOf_withSlashes (name : Text) :
    Path.partsOf (withSlashes name) =
      (components name).filter fun part => part ≠ [] ∧ part ≠ Path.dot := by
  refine List.filter_congr fun part _ => ?_
  cases part <;> simp

theorem escapes_iff : Escapes name ↔
    ((Path.ofText (withSlashes name)).isAbsolute ||
      (Path.ofText (withSlashes name)).parts.contains Path.dotDot) = true := by
  have back : Path.dotDot ∈ Path.partsOf (withSlashes name) ↔ Path.dotDot ∈ components name := by
    rw [partsOf_withSlashes, List.mem_filter]
    exact and_iff_left (by decide)
  rw [Bool.or_eq_true, Path.isAbsolute_ofText_iff, List.contains_iff_mem]
  exact or_congr Iff.rfl back.symm

theorem locate_of_escapes (store : Store) (h : Escapes name) :
    store.locate name = .error (.outside name) := by
  rw [locate, if_pos (escapes_iff.mp h)]

theorem locate_of_not_escapes (store : Store) (h : ¬Escapes name) :
    store.locate name = .ok (store.pathOf name) := by
  rw [locate, if_neg (mt escapes_iff.mpr h), pathOf, ← partsOf_withSlashes]
  rfl

theorem eq_of_locate {path : Path} (h : store.locate name = .ok path) :
    path = ⟨store.root.anchor, store.root.parts ++ Path.partsOf (withSlashes name)⟩ := by
  rw [locate] at h
  split at h
  · simp at h
  · exact (Except.ok.inj h).symm

theorem eq_outside_of_locate {e : StoreError} (h : store.locate name = .error e) :
    e = .outside name := by
  rw [locate] at h
  split at h
  · exact (Except.error.inj h).symm
  · simp at h

theorem toOption_locate (store : Store) (name : Text) :
    (store.locate name).toOption = if Escapes name then none else some (store.pathOf name) := by
  by_cases escapes : Escapes name
  · rw [locate_of_escapes store escapes, if_pos escapes]
    rfl
  · rw [locate_of_not_escapes store escapes, if_neg escapes]
    rfl

end Store

namespace SourceUnit

def artifactSuffix : Text := ".graph.json"

theorem graphTarget_eq (unit : SourceUnit) :
    unit.graphTarget = unit.name ++ Path.slash :: (unit.type ++ artifactSuffix) := by
  simp only [graphTarget, Text.join, List.flatten_cons, List.flatten_nil, List.append_nil]
  rfl

/-- The components of the target that count in a path: those of the name, and those of the type
with the suffix. -/
def targetParts (unit : SourceUnit) : List Text :=
  Path.partsOf (Store.withSlashes unit.name) ++
    Path.partsOf (Store.withSlashes (unit.type ++ artifactSuffix))

theorem partsOf_graphTarget (unit : SourceUnit) :
    Path.partsOf (Store.withSlashes unit.graphTarget) = unit.targetParts := by
  have slash : Store.withSlashes (Path.slash :: (unit.type ++ artifactSuffix)) =
      Path.slash :: Store.withSlashes (unit.type ++ artifactSuffix) := rfl
  rw [targetParts, graphTarget_eq, Store.withSlashes, List.map_append, ← Store.withSlashes,
    ← Store.withSlashes, slash, Path.partsOf, Text.splitOn_append_cons, List.filter_append]
  rfl

def Stays (unit : SourceUnit) : Prop := ¬Store.Escapes unit.graphTarget

instance (unit : SourceUnit) : Decidable unit.Stays := inferInstanceAs (Decidable (¬_))

theorem pathOf_graphTarget_inj {store : Store} {unit other : SourceUnit} :
    store.pathOf unit.graphTarget = store.pathOf other.graphTarget ↔
      unit.targetParts = other.targetParts := by
  rw [← partsOf_graphTarget, ← partsOf_graphTarget, Store.partsOf_withSlashes,
    Store.partsOf_withSlashes, Store.pathOf, Store.pathOf, Path.mk.injEq, List.append_right_inj,
    and_iff_right rfl]

def LeadApart (units : List SourceUnit) : Prop := units.Pairwise (·.targetParts ≠ ·.targetParts)

instance (units : List SourceUnit) : Decidable (LeadApart units) :=
  inferInstanceAs (Decidable (List.Pairwise _ _))

theorem nodup_pathOf_iff (store : Store) (units : List SourceUnit) :
    (units.map fun unit => store.pathOf unit.graphTarget).Nodup ↔ LeadApart units := by
  rw [List.Nodup, List.pairwise_map, LeadApart]
  simp only [ne_eq, pathOf_graphTarget_inj]

end SourceUnit
end IndexCoverage
