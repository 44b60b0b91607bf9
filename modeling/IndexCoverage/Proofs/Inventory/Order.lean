import IndexCoverage.Inventory
import IndexCoverage.Proofs.Text.Order
import Mathlib.Data.List.Pairwise

/-! The order in which a walk lists files, beside the order of their paths. A directory's files
come first, by name, and then what is in its subdirectories, by name. Paths are told apart at the
first name in which they differ, with a slash behind it if it is the name of a directory. -/

namespace IndexCoverage

/-- The names that lead to a file come before those that lead to another. -/
inductive Precedes : List Text → List Text → Prop
  | files {name other : Text} : Text.before name other = true → Precedes [name] [other]
  | fileFirst {name dir : Text} {rest : List Text} : rest ≠ [] → Precedes [name] (dir :: rest)
  | dirs {dir other : Text} {rest more : List Text} : Text.before dir other = true → rest ≠ [] →
      more ≠ [] → Precedes (dir :: rest) (other :: more)
  | within {dir : Text} {names others : List Text} : Precedes names others →
      Precedes (dir :: names) (dir :: others)

/-- The first comes before the second, and its path after that of the second: a directory beside
a file comes before it with its slash, or a directory beside another only without. -/
inductive Misplaced : List Text → List Text → Prop
  | fileFirst {name dir : Text} {rest : List Text} : rest ≠ [] →
      Text.before (dir ++ [Path.slash]) name = true → Misplaced [name] (dir :: rest)
  | dirs {dir other : Text} {rest more : List Text} : Text.before dir other = true → rest ≠ [] →
      more ≠ [] → Text.before (other ++ [Path.slash]) (dir ++ [Path.slash]) = true →
      Misplaced (dir :: rest) (other :: more)
  | within {dir : Text} {names others : List Text} : Misplaced names others →
      Misplaced (dir :: names) (dir :: others)

variable {names others : List Text}

theorem Precedes.ne_nil (h : Precedes names others) : names ≠ [] ∧ others ≠ [] := by
  cases h <;> simp

theorem Misplaced.ne_nil (h : Misplaced names others) : names ≠ [] ∧ others ≠ [] := by
  cases h <;> simp

theorem Precedes.asymm (h : Precedes names others) : ¬Precedes others names := by
  induction h with
  | files first =>
    rintro (second | more | ⟨-, more, -⟩ | inner)
    · simp [Text.before_asymm first] at second
    · exact more rfl
    · exact more rfl
    · exact inner.ne_nil.1 rfl
  | fileFirst more =>
    rintro (second | none | ⟨-, -, none⟩ | inner)
    · exact more rfl
    · exact none rfl
    · exact none rfl
    · exact inner.ne_nil.2 rfl
  | dirs first more mores =>
    rintro (second | none | ⟨second, -, -⟩ | inner)
    · exact more rfl
    · exact mores rfl
    · simp [Text.before_asymm first] at second
    · simp [Text.before_irrefl] at first
  | within inner ih =>
    rintro (second | none | ⟨second, -, -⟩ | outer)
    · exact inner.ne_nil.1 rfl
    · exact inner.ne_nil.2 rfl
    · simp [Text.before_irrefl] at second
    · exact ih outer

instance : Std.Asymm Precedes := ⟨fun _ _ => Precedes.asymm⟩

theorem Misplaced.precedes (h : Misplaced names others) : Precedes names others := by
  induction h with
  | fileFirst more => exact .fileFirst more
  | dirs first more mores => exact .dirs first more mores
  | within _ ih => exact .within ih

namespace Inventory

theorem shownPath_singleton (name : Text) : shownPath [name] = name := List.intercalate_singleton

theorem shownPath_cons {dir : Text} {rest : List Text} (more : rest ≠ []) :
    shownPath (dir :: rest) = dir ++ [Path.slash] ++ shownPath rest :=
  List.intercalate_cons_of_ne_nil more

end Inventory

theorem eq_of_prefix_slash {dir other more : Text} (whole : Path.slash ∉ dir)
    (wholeOther : Path.slash ∉ other) (h : dir ++ [Path.slash] <+: other ++ [Path.slash] ++ more) :
    dir = other := by
  induction dir generalizing other with
  | nil =>
    cases other with
    | nil => rfl
    | cons c other => simp [(List.cons_prefix_cons.mp h).1] at wholeOther
  | cons c dir ih =>
    cases other with
    | nil => simp [← (List.cons_prefix_cons.mp h).1] at whole
    | cons d other =>
      obtain ⟨rfl, inner⟩ := List.cons_prefix_cons.mp h
      rw [ih (fun inside => whole (List.mem_cons_of_mem _ inside))
        (fun inside => wholeOther (List.mem_cons_of_mem _ inside)) inner]

open Inventory (shownPath shownPath_singleton shownPath_cons)

theorem Precedes.before_shownPath_iff (h : Precedes names others)
    (whole : ∀ name ∈ names, Path.slash ∉ name) (wholeOthers : ∀ name ∈ others, Path.slash ∉ name) :
    Text.before (shownPath names) (shownPath others) = true ↔ ¬Misplaced names others := by
  induction h with
  | files first =>
    rw [shownPath_singleton, shownPath_singleton]
    refine iff_of_true first ?_
    rintro (⟨none, -⟩ | ⟨-, none, -, -⟩ | inner)
    · exact none rfl
    · exact none rfl
    · exact inner.ne_nil.1 rfl
  | @fileFirst name dir rest more =>
    have here : Path.slash ∉ name := whole name (List.mem_cons_self ..)
    have apart : ¬dir ++ [Path.slash] <+: name := fun inside => here (inside.subset (by simp))
    have other : name ≠ dir ++ [Path.slash] := fun same => here (by simp [same])
    rw [shownPath_singleton, shownPath_cons more, Text.before_append_of_not_prefix_right apart,
      Text.before_eq_not other, Bool.not_eq_true', Bool.eq_false_iff, not_iff_not]
    constructor
    · exact fun early => .fileFirst more early
    · rintro (⟨-, early⟩ | ⟨-, none, -, -⟩ | inner)
      · exact early
      · exact absurd rfl none
      · exact absurd rfl inner.ne_nil.1
  | @dirs dir other rest mores first more mores' =>
    have here : Path.slash ∉ dir := whole dir (List.mem_cons_self ..)
    have there : Path.slash ∉ other := wholeOthers other (List.mem_cons_self ..)
    have apart := Text.ne_of_before first
    have noStart : ¬dir ++ [Path.slash] <+: other ++ [Path.slash] ++ shownPath mores :=
      fun start => apart (eq_of_prefix_slash here there start)
    have noStart' : ¬other ++ [Path.slash] <+: dir ++ [Path.slash] := by
      intro start
      rw [← List.append_nil (dir ++ [Path.slash])] at start
      exact apart (eq_of_prefix_slash there here start).symm
    have slashed : dir ++ [Path.slash] ≠ other ++ [Path.slash] :=
      fun same => apart (List.append_cancel_right same)
    rw [shownPath_cons more, shownPath_cons mores', Text.before_append_of_not_prefix noStart,
      Text.before_append_of_not_prefix_right noStart', Text.before_eq_not slashed,
      Bool.not_eq_true', Bool.eq_false_iff, not_iff_not]
    constructor
    · exact fun early => .dirs first more mores' early
    · rintro (⟨none, -⟩ | ⟨-, -, -, early⟩ | inner)
      · exact absurd rfl more
      · exact early
      · exact absurd rfl apart
  | @within dir names others inner ih =>
    rw [shownPath_cons inner.ne_nil.1, shownPath_cons inner.ne_nil.2, Text.before_append_left,
      ih (fun name inside => whole name (List.mem_cons_of_mem _ inside))
        (fun name inside => wholeOthers name (List.mem_cons_of_mem _ inside)), not_iff_not]
    constructor
    · exact .within
    · rintro (⟨none, -⟩ | ⟨first, -, -, -⟩ | outer)
      · exact absurd rfl inner.ne_nil.1
      · simp [Text.before_irrefl] at first
      · exact outer

def pathNames (path : Text) : List Text := Text.splitOn Path.slash path

theorem pathNames_shownPath (nonempty : names ≠ []) (whole : ∀ name ∈ names, Path.slash ∉ name) :
    pathNames (shownPath names) = names := by
  cases names with
  | nil => exact absurd rfl nonempty
  | cons name rest => exact Text.splitOn_intercalate whole

theorem before_iff_of_precedes {path other : Text}
    (h : Precedes (pathNames path) (pathNames other)) :
    Text.before path other = true ↔ ¬Misplaced (pathNames path) (pathNames other) := by
  have shown (text : Text) : shownPath (pathNames text) = text := Text.intercalate_splitOn _ text
  have paths := h.before_shownPath_iff (fun _ inside => Text.not_mem_of_mem_splitOn inside)
    (fun _ inside => Text.not_mem_of_mem_splitOn inside)
  rwa [shown, shown] at paths

/-- Paths in the order of the walk ascend exactly if no two of them are misplaced. -/
theorem pairwise_before_iff {paths : List Text}
    (listed : paths.Pairwise fun path other => Precedes (pathNames path) (pathNames other)) :
    (paths.Pairwise fun path other => Text.before path other = true) ↔
      ∀ path ∈ paths, ∀ other ∈ paths, ¬Misplaced (pathNames path) (pathNames other) := by
  constructor
  · intro ascending path inside other there
    let Placed (path other : Text) := ¬Misplaced (pathNames path) (pathNames other)
    have forward : paths.Pairwise Placed :=
      (listed.and ascending).imp fun ⟨first, early⟩ => (before_iff_of_precedes first).mp early
    have back : paths.Pairwise (flip Placed) :=
      listed.imp fun first misplaced => misplaced.precedes.asymm first
    have self (path : Text) : Placed path path := fun same => same.precedes.asymm same.precedes
    exact forward.forall_of_forall_of_flip (fun path _ => self path) back inside there
  · intro placed
    exact listed.imp_of_mem fun inside there first =>
      (before_iff_of_precedes first).mpr (placed _ inside _ there)

end IndexCoverage
