import IndexCoverage.Graph.Load

/-! The targets of a plan. However the units are grouped, the rules that make graphs
have every unit's target once, in some order; only the order depends on the groups. -/

namespace IndexCoverage

namespace Draft

def targets (draft : Draft) : Targets :=
  draft.rules.flatMap Rule.artifacts ++ draft.groups.flatMap (·.2)

theorem artifacts_finish (draft : Draft) : draft.finish.flatMap Rule.artifacts = draft.targets := by
  rw [finish, List.flatMap_append, List.flatMap_map]
  rfl

theorem perm_addTarget? {type target : Text} {unit : SourceUnit}
    {groups next : List (Text × Targets)} (h : addTarget? type target unit groups = some next) :
    (next.flatMap (·.2)).Perm (groups.flatMap (·.2) ++ [(target, unit)]) := by
  induction groups generalizing next with
  | nil =>
    obtain rfl := by simpa [addTarget?] using h
    simp
  | cons group rest ih =>
    obtain ⟨other, targets⟩ := group
    rw [addTarget?] at h
    split at h
    · split at h
      · simp at h
      · obtain rfl := by simpa using h
        simp only [List.flatMap_cons, List.append_assoc]
        exact .append_left _ List.perm_append_comm
    · obtain ⟨added, inRest, rfl⟩ := Option.map_eq_some_iff.mp h
      simp only [List.flatMap_cons, List.append_assoc]
      exact .append_left _ (ih inRest)

theorem perm_add {grouped : List Text} {draft next : Draft} {unit : SourceUnit}
    (h : draft.add grouped unit = .ok next) :
    next.targets.Perm (draft.targets ++ [(unit.graphTarget, unit)]) := by
  unfold add at h
  split at h
  · split at h
    · next groups added =>
      obtain rfl := by simpa using h
      simp only [targets, List.flatMap_append, List.flatMap_cons, Rule.artifacts,
        List.flatMap_nil, List.append_nil, List.append_assoc]
      exact .append_left _ (perm_addTarget? added)
    · simp at h
  · obtain rfl := by simpa using h
    simp only [targets, List.flatMap_append, List.flatMap_cons, Rule.artifacts,
      List.flatMap_nil, List.append_nil, List.append_assoc, List.nil_append]
    exact .append_left _ List.perm_append_comm

theorem perm_foldlM_add {grouped : List Text} {draft last : Draft} {units : List SourceUnit}
    (h : units.foldlM (add grouped) draft = .ok last) :
    last.targets.Perm (draft.targets ++ units.map fun unit => (unit.graphTarget, unit)) := by
  induction units generalizing draft with
  | nil =>
    obtain rfl := Except.ok.inj h
    simp
  | cons unit rest ih =>
    rw [List.foldlM_cons] at h
    cases first : draft.add grouped unit with
    | error e => simp [first, bind, Except.bind] at h
    | ok next =>
      rw [first] at h
      have step := (perm_add first).append_right (rest.map fun unit => (unit.graphTarget, unit))
      have run := (ih h).trans step
      rwa [List.append_assoc] at run

theorem foldlM_add_nil (units : List SourceUnit) (draft : Draft) :
    ∃ last, units.foldlM (add []) draft = .ok last := by
  induction units generalizing draft with
  | nil => exact ⟨draft, rfl⟩
  | cons unit rest ih => exact ih _

end Draft

namespace TreeConfig

def targets (config : TreeConfig) : Targets :=
  config.units.map fun unit => (unit.graphTarget, unit)

theorem perm_plan {config : TreeConfig} {grouped : List Text} {rules : List Rule}
    (h : config.plan grouped = .ok rules) :
    (rules.flatMap Rule.artifacts).Perm config.targets := by
  rw [plan] at h
  cases drafted : config.units.foldlM (Draft.add grouped) ⟨[], []⟩ with
  | error e => simp [drafted, Except.map] at h
  | ok draft =>
    rw [drafted] at h
    obtain rfl := Except.ok.inj h
    rw [Draft.artifacts_finish]
    exact Draft.perm_foldlM_add drafted

theorem exists_plan_nil (config : TreeConfig) : ∃ rules, config.plan [] = .ok rules := by
  obtain ⟨last, drafted⟩ := Draft.foldlM_add_nil config.units ⟨[], []⟩
  exact ⟨last.finish, by rw [plan, drafted]; rfl⟩

end TreeConfig
end IndexCoverage
