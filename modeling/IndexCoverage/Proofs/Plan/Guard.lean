import IndexCoverage.Proofs.Plan.Targets

/-! When units can be planned: unless two of one type that is grouped have the same target,
that is, the same name. The order of the units has no part in it. -/

namespace IndexCoverage

namespace SourceUnit

theorem graphTarget_eq_iff {unit other : SourceUnit} (types : unit.type = other.type) :
    unit.graphTarget = other.graphTarget ↔ unit.name = other.name := by
  simp only [graphTarget, types, Text.join, List.flatten_cons]
  exact List.append_left_inj _

/-- The units can be in one plan: they have different names if both are grouped as one type. -/
def Apart (grouped : List Text) (unit other : SourceUnit) : Prop :=
  unit.type ∈ grouped → unit.type = other.type → unit.name ≠ other.name

theorem Apart.symm {grouped : List Text} {unit other : SourceUnit} (h : Apart grouped unit other) :
    Apart grouped other unit := by
  intro listed types names
  exact h (types ▸ listed) types.symm names.symm

end SourceUnit

namespace Draft

def groupOf (type : Text) (groups : List (Text × Targets)) : Targets :=
  (groups.lookup type).getD []

theorem groupOf_cons_self (type : Text) (targets : Targets) (rest : List (Text × Targets)) :
    groupOf type ((type, targets) :: rest) = targets := by
  simp [groupOf]

theorem groupOf_cons_ne {type other : Text} (h : type ≠ other) (targets : Targets)
    (rest : List (Text × Targets)) :
    groupOf type ((other, targets) :: rest) = groupOf type rest := by
  simp [groupOf, List.lookup_cons, beq_eq_false_iff_ne.mpr h]

variable {type target : Text} {unit : SourceUnit}

theorem addTarget?_eq_none_iff {groups : List (Text × Targets)} :
    addTarget? type target unit groups = none ↔
      target ∈ (groupOf type groups).map Prod.fst := by
  induction groups with
  | nil => simp [addTarget?, groupOf]
  | cons group rest ih =>
    obtain ⟨other, targets⟩ := group
    rw [addTarget?]
    by_cases here : other = type
    · subst here
      rw [groupOf_cons_self]
      simp
    · rw [groupOf_cons_ne (Ne.symm here), if_neg here, Option.map_eq_none_iff, ih]

theorem groupOf_addTarget? {groups next : List (Text × Targets)}
    (h : addTarget? type target unit groups = some next) (other : Text) :
    groupOf other next =
      groupOf other groups ++ if other = type then [(target, unit)] else [] := by
  induction groups generalizing next with
  | nil =>
    obtain rfl := by simpa [addTarget?] using h
    by_cases same : other = type
    · subst same
      simp [groupOf]
    · rw [groupOf_cons_ne same]
      simp [same]
  | cons group rest ih =>
    obtain ⟨first, targets⟩ := group
    rw [addTarget?] at h
    by_cases here : first = type
    · subst here
      rw [if_pos rfl] at h
      split at h
      · simp at h
      · obtain rfl := by simpa using h
        by_cases same : other = first
        · subst same
          rw [groupOf_cons_self, groupOf_cons_self, if_pos rfl]
        · rw [groupOf_cons_ne same, groupOf_cons_ne same, if_neg same, List.append_nil]
    · rw [if_neg here] at h
      obtain ⟨added, inRest, rfl⟩ := Option.map_eq_some_iff.mp h
      by_cases same : other = first
      · subst same
        rw [groupOf_cons_self, groupOf_cons_self, if_neg here, List.append_nil]
      · rw [groupOf_cons_ne same, groupOf_cons_ne same, ih inRest]

def Takes (grouped : List Text) (draft : Draft) (unit : SourceUnit) : Prop :=
  unit.type ∈ grouped ∧ unit.graphTarget ∈ (groupOf unit.type draft.groups).map Prod.fst

theorem add_cases (grouped : List Text) (draft : Draft) (unit : SourceUnit) :
    (∃ e, draft.add grouped unit = .error e) ∧ Takes grouped draft unit ∨
      ∃ next, draft.add grouped unit = .ok next ∧ ¬Takes grouped draft unit ∧
        ∀ other, ¬Takes grouped next other ↔
          ¬Takes grouped draft other ∧ SourceUnit.Apart grouped unit other := by
  by_cases listed : unit.type ∈ grouped
  · have contained : grouped.contains unit.type = true := by simpa using listed
    cases added : addTarget? unit.type unit.graphTarget unit draft.groups with
    | none =>
      refine .inl ⟨⟨_, by rw [add, if_pos contained, added]⟩, listed, ?_⟩
      exact addTarget?_eq_none_iff.mp added
    | some groups =>
      refine .inr ⟨_, by rw [add, if_pos contained, added], ?_, fun other => ?_⟩
      · rintro ⟨-, taken⟩
        simp [addTarget?_eq_none_iff.mpr taken] at added
      · simp only [Takes, groupOf_addTarget? added, List.map_append, List.mem_append]
        by_cases types : other.type = unit.type
        · have names := SourceUnit.graphTarget_eq_iff types
          simp [types, listed, names, SourceUnit.Apart, eq_comm]
        · simp [types, SourceUnit.Apart, Ne.symm types]
  · have absent : grouped.contains unit.type = false := by simpa using listed
    refine .inr ⟨_, by rw [add, absent]; rfl, fun taken => listed taken.1, fun other => ?_⟩
    simp [Takes, SourceUnit.Apart, listed]

theorem exists_foldlM_add_iff {grouped : List Text} {units : List SourceUnit} {draft : Draft} :
    (∃ last, units.foldlM (add grouped) draft = .ok last) ↔
      units.Pairwise (SourceUnit.Apart grouped) ∧
        ∀ unit ∈ units, ¬Takes grouped draft unit := by
  induction units generalizing draft with
  | nil => simp [pure, Except.pure]
  | cons unit rest ih =>
    rw [List.foldlM_cons, List.pairwise_cons]
    rcases add_cases grouped draft unit with ⟨⟨e, failed⟩, taken⟩ | ⟨next, added, free, taken⟩
    · rw [failed]
      constructor
      · rintro ⟨last, h⟩
        simp [Bind.bind, Except.bind] at h
      · rintro ⟨-, free⟩
        exact absurd taken (free unit (List.mem_cons_self ..))
    · rw [added]
      change (∃ last, rest.foldlM (add grouped) next = .ok last) ↔ _
      rw [ih]
      simp only [taken, List.mem_cons, forall_eq_or_imp]
      constructor
      · rintro ⟨apart, all⟩
        exact ⟨⟨fun other inside => (all other inside).2, apart⟩, free,
          fun other inside => (all other inside).1⟩
      · rintro ⟨⟨first, apart⟩, -, all⟩
        exact ⟨apart, fun other inside => ⟨all other inside, first other inside⟩⟩

end Draft

namespace TreeConfig

variable {config other : TreeConfig} {grouped : List Text}

/-- A plan exists exactly if no two units of a grouped type have one name. -/
theorem exists_plan_iff :
    (∃ rules, config.plan grouped = .ok rules) ↔
      config.units.Pairwise (SourceUnit.Apart grouped) := by
  have fresh (unit : SourceUnit) : ¬Draft.Takes grouped ⟨[], []⟩ unit := by
    simp [Draft.Takes, Draft.groupOf]
  have drafts : (∃ last, config.units.foldlM (Draft.add grouped) ⟨[], []⟩ = .ok last) ↔ _ :=
    Draft.exists_foldlM_add_iff
  simp only [fresh, not_false_eq_true, implies_true, and_true] at drafts
  rw [← drafts, plan]
  cases config.units.foldlM (Draft.add grouped) ⟨[], []⟩ with
  | error e => simp [Except.map]
  | ok draft => simp [Except.map]

theorem exists_plan_of_perm {rules : List Rule} (perm : config.units.Perm other.units)
    (planned : config.plan grouped = .ok rules) :
    ∃ more, other.plan grouped = .ok more := by
  have apart := exists_plan_iff.mp ⟨rules, planned⟩
  exact exists_plan_iff.mpr ((perm.pairwise_iff SourceUnit.Apart.symm).mp apart)

end TreeConfig
end IndexCoverage
