import IndexCoverage.Proofs.Plan.Guard
import IndexCoverage.Proofs.Text.Appearance
import IndexCoverage.Graph.Load
import Mathlib.Data.List.Basic

/-! What a plan consists of. Each unit has its own rules, in the order of the tree; behind them
stands one rule for each grouped type, in the order in which the types appear, that makes the
graphs of all its units. So every unit is in one rule that makes graphs. -/

namespace IndexCoverage

namespace SourceUnit

def ownRules (grouped : List Text) (unit : SourceUnit) : List Rule :=
  .depResolve unit.depResolveTarget unit ::
    if unit.type ∈ grouped then [] else [.graph unit.graphTarget unit]

/-- Units that cannot be told apart in the rule for their type. -/
def Twins (grouped : List Text) (unit twin : SourceUnit) : Prop :=
  unit.type ∈ grouped ∧ unit.type = twin.type ∧ unit.name = twin.name

end SourceUnit

def targetsOf (units : List SourceUnit) (type : Text) : Targets :=
  (units.filter fun unit => unit.type = type).map fun unit => (unit.graphTarget, unit)

def groupedTypes (grouped : List Text) (units : List SourceUnit) : List Text :=
  Text.firsts ((units.map SourceUnit.type).filter (· ∈ grouped))

theorem mem_groupedTypes {grouped : List Text} {units : List SourceUnit} {type : Text} :
    type ∈ groupedTypes grouped units ↔ type ∈ grouped ∧ ∃ unit ∈ units, unit.type = type := by
  simp [groupedTypes, Text.mem_firsts, and_comm]

theorem nodup_groupedTypes (grouped : List Text) (units : List SourceUnit) :
    (groupedTypes grouped units).Nodup := Text.nodup_firsts _

theorem targetsOf_concat (units : List SourceUnit) (unit : SourceUnit) (type : Text) :
    targetsOf (units ++ [unit]) type =
      targetsOf units type ++ if type = unit.type then [(unit.graphTarget, unit)] else [] := by
  by_cases same : type = unit.type
  · simp [targetsOf, same]
  · simp [targetsOf, same, Ne.symm same]

theorem targetsOf_eq_nil {units : List SourceUnit} {type : Text}
    (h : ∀ unit ∈ units, unit.type ≠ type) : targetsOf units type = [] := by
  simpa [targetsOf] using h

theorem groupedTypes_concat_of_mem {grouped : List Text} {unit : SourceUnit}
    (listed : unit.type ∈ grouped) (units : List SourceUnit) :
    groupedTypes grouped (units ++ [unit]) =
      if unit.type ∈ groupedTypes grouped units then groupedTypes grouped units
      else groupedTypes grouped units ++ [unit.type] := by
  have kept : ([unit].map SourceUnit.type).filter (· ∈ grouped) = [unit.type] := by simp [listed]
  rw [groupedTypes, List.map_append, List.filter_append, kept]
  split
  · next known => exact Text.firsts_concat_of_mem (Text.mem_firsts.mp known)
  · next unknown => exact Text.firsts_concat_of_notMem (mt Text.mem_firsts.mpr unknown)

theorem groupedTypes_concat_of_notMem {grouped : List Text} {unit : SourceUnit}
    (unlisted : unit.type ∉ grouped) (units : List SourceUnit) :
    groupedTypes grouped (units ++ [unit]) = groupedTypes grouped units := by
  simp [groupedTypes, unlisted]

namespace Draft

def of (grouped : List Text) (units : List SourceUnit) : Draft where
  rules := units.flatMap (SourceUnit.ownRules grouped)
  groups := (groupedTypes grouped units).map fun type => (type, targetsOf units type)

theorem addTarget?_map {type target : Text} {unit : SourceUnit} {types : List Text}
    (nodup : types.Nodup) (targets : Text → Targets) (fresh : type ∉ types → targets type = [])
    {next : List (Text × Targets)}
    (h : addTarget? type target unit (types.map fun other => (other, targets other)) = some next) :
    next = (if type ∈ types then types else types ++ [type]).map fun other =>
      (other, targets other ++ if other = type then [(target, unit)] else []) := by
  induction types generalizing next with
  | nil =>
    obtain rfl := by simpa [addTarget?] using h
    simp [fresh]
  | cons first rest ih =>
    obtain ⟨new, nodup⟩ := List.nodup_cons.mp nodup
    rw [List.map_cons, addTarget?] at h
    by_cases here : first = type
    · subst here
      have unchanged : rest.map (fun other => (other, targets other)) = rest.map fun other =>
          (other, targets other ++ if other = first then [(target, unit)] else []) := by
        refine List.map_congr_left fun other inside => ?_
        have different : other ≠ first := fun same => new (same ▸ inside)
        rw [if_neg different, List.append_nil]
      rw [if_pos rfl] at h
      split at h
      · simp at h
      · obtain rfl := by simpa using h
        simp [unchanged]
    · rw [if_neg here] at h
      obtain ⟨added, inRest, rfl⟩ := Option.map_eq_some_iff.mp h
      have started (absent : type ∉ rest) : targets type = [] :=
        fresh fun inside => (List.mem_cons.mp inside).elim (Ne.symm here) absent
      rw [ih nodup started inRest]
      by_cases known : type ∈ rest <;> simp [known, here, Ne.symm here]

theorem groupOf_map (types : List Text) (targets : Text → Targets) (type : Text) :
    groupOf type (types.map fun other => (other, targets other)) =
      if type ∈ types then targets type else [] := by
  induction types with
  | nil => rfl
  | cons first rest ih =>
    rw [List.map_cons]
    by_cases here : type = first
    · subst here
      simp [groupOf_cons_self]
    · rw [groupOf_cons_ne here, ih]
      simp [here]

theorem groupOf_of {grouped : List Text} {units : List SourceUnit} {type : Text}
    (listed : type ∈ grouped) :
    groupOf type (of grouped units).groups = targetsOf units type := by
  rw [of, groupOf_map]
  split
  · rfl
  · next absent =>
    refine (targetsOf_eq_nil fun unit inside same => absent ?_).symm
    exact mem_groupedTypes.mpr ⟨listed, unit, inside, same⟩

theorem groups_of_concat {grouped : List Text} {unit : SourceUnit} (unlisted : unit.type ∉ grouped)
    (units : List SourceUnit) :
    (of grouped (units ++ [unit])).groups = (of grouped units).groups := by
  rw [of, of, groupedTypes_concat_of_notMem unlisted]
  refine List.map_congr_left fun type inside => ?_
  have different : type ≠ unit.type :=
    fun same => unlisted (same ▸ (mem_groupedTypes.mp inside).1)
  rw [targetsOf_concat, if_neg different, List.append_nil]

theorem add_of (grouped : List Text) (units : List SourceUnit) (unit : SourceUnit) :
    (∃ twin ∈ units, SourceUnit.Twins grouped twin unit ∧
        (of grouped units).add grouped unit = .error (.duplicate unit.type unit.name)) ∨
      (of grouped units).add grouped unit = .ok (of grouped (units ++ [unit])) := by
  by_cases listed : unit.type ∈ grouped
  · have contained : grouped.contains unit.type = true := by simpa using listed
    cases added : addTarget? unit.type unit.graphTarget unit (of grouped units).groups with
    | none =>
      have taken := addTarget?_eq_none_iff.mp added
      rw [groupOf_of listed] at taken
      obtain ⟨twin, ⟨inside, types⟩, targets⟩ : ∃ twin, (twin ∈ units ∧ twin.type = unit.type) ∧
          twin.graphTarget = unit.graphTarget := by
        simpa [targetsOf] using taken
      have names := (SourceUnit.graphTarget_eq_iff types).mp targets
      refine .inl ⟨twin, inside, ⟨types ▸ listed, types, names⟩, ?_⟩
      rw [add, if_pos contained, added]
    | some groups =>
      have fresh (absent : unit.type ∉ groupedTypes grouped units) :
          targetsOf units unit.type = [] :=
        targetsOf_eq_nil fun other inside same =>
          absent (mem_groupedTypes.mpr ⟨listed, other, inside, same⟩)
      have grown := addTarget?_map (nodup_groupedTypes grouped units) (targetsOf units) fresh added
      have same : groups = (of grouped (units ++ [unit])).groups := by
        rw [grown, of, groupedTypes_concat_of_mem listed]
        exact List.map_congr_left fun type _ => by rw [targetsOf_concat]
      refine .inr ?_
      rw [add, if_pos contained, added, same]
      simp [SourceUnit.ownRules, listed, of]
  · have absent : grouped.contains unit.type = false := by simpa using listed
    refine .inr ?_
    rw [add, absent, ← groups_of_concat listed]
    simp [SourceUnit.ownRules, listed, of]

theorem foldlM_add_of (grouped : List Text) (units rest : List SourceUnit) :
    (∃ unit twin, [unit, twin].Sublist (units ++ rest) ∧ unit.Twins grouped twin ∧
        rest.foldlM (add grouped) (of grouped units) =
          .error (.duplicate twin.type twin.name)) ∨
      rest.foldlM (add grouped) (of grouped units) = .ok (of grouped (units ++ rest)) := by
  induction rest generalizing units with
  | nil => exact .inr (by rw [List.append_nil]; rfl)
  | cons next rest ih =>
    rw [List.foldlM_cons]
    rcases add_of grouped units next with ⟨twin, inside, twins, refused⟩ | added
    · refine .inl ⟨twin, next, ?_, twins, by rw [refused]; rfl⟩
      exact (List.singleton_sublist.mpr inside).append
        (List.singleton_sublist.mpr (List.mem_cons_self ..))
    · have run := ih (units ++ [next])
      rw [List.append_assoc, List.singleton_append] at run
      rw [added]
      exact run

end Draft

namespace Rule

def makes (unit : SourceUnit) (rule : Rule) : Bool := rule.artifacts.any (·.2 = unit)

theorem makes_graphs_targetsOf (unit : SourceUnit) (units : List SourceUnit) (type : Text) :
    makes unit (.graphs (targetsOf units type)) = decide (unit ∈ units ∧ unit.type = type) := by
  rw [Bool.eq_iff_iff, makes, List.any_eq_true, decide_eq_true_eq]
  simp [artifacts, targetsOf]

theorem countP_ownRules (grouped : List Text) (unit : SourceUnit) (units : List SourceUnit) :
    (units.flatMap (SourceUnit.ownRules grouped)).countP (makes unit) =
      if unit.type ∈ grouped then 0 else units.count unit := by
  induction units with
  | nil => simp
  | cons next rest ih =>
    have own : (next.ownRules grouped).countP (makes unit) =
        if unit.type ∈ grouped then 0 else if next == unit then 1 else 0 := by
      by_cases same : next = unit
      · subst same
        by_cases listed : next.type ∈ grouped <;>
          simp [SourceUnit.ownRules, makes, artifacts, listed]
      · by_cases listed : next.type ∈ grouped <;>
          simp [SourceUnit.ownRules, makes, artifacts, listed, same]
    rw [List.flatMap_cons, List.countP_append, ih, own, List.count_cons]
    split
    · rfl
    · exact Nat.add_comm ..

theorem countP_groupRules (grouped : List Text) (unit : SourceUnit) (units : List SourceUnit) :
    ((groupedTypes grouped units).map fun type => graphs (targetsOf units type)).countP
        (makes unit) =
      if unit.type ∈ grouped ∧ unit ∈ units then 1 else 0 := by
  have here (type : Text) : (makes unit ∘ fun type => graphs (targetsOf units type)) type =
      decide (unit ∈ units ∧ unit.type = type) := makes_graphs_targetsOf unit units type
  rw [List.countP_map, List.countP_congr fun type _ => by rw [here]]
  by_cases inside : unit ∈ units
  · have types : (groupedTypes grouped units).countP
        (fun type => decide (unit ∈ units ∧ unit.type = type)) =
          (groupedTypes grouped units).count unit.type := by
      rw [List.count_eq_countP]
      refine List.countP_congr fun type _ => ?_
      rw [decide_eq_true_eq, beq_iff_eq]
      exact ⟨fun both => both.2.symm, fun same => ⟨inside, same.symm⟩⟩
    have appears : unit.type ∈ groupedTypes grouped units ↔ unit.type ∈ grouped := by
      rw [mem_groupedTypes]
      exact ⟨And.left, fun listed => ⟨listed, unit, inside, rfl⟩⟩
    rw [types, (nodup_groupedTypes grouped units).count]
    simp [appears, inside]
  · simp [inside]

end Rule

namespace TreeConfig

def rules (grouped : List Text) (config : TreeConfig) : List Rule :=
  config.units.flatMap (SourceUnit.ownRules grouped) ++
    (groupedTypes grouped config.units).map fun type => .graphs (targetsOf config.units type)

theorem countP_rules {grouped : List Text} {config : TreeConfig}
    (apart : config.units.Pairwise (SourceUnit.Apart grouped)) (unit : SourceUnit) :
    (config.rules grouped).countP (Rule.makes unit) = config.units.count unit := by
  rw [rules, List.countP_append, Rule.countP_ownRules, Rule.countP_groupRules]
  by_cases listed : unit.type ∈ grouped
  · have once : config.units.count unit < 2 := by
      rw [← Nat.not_le, ← List.replicate_sublist_iff]
      intro twice
      exact List.pairwise_iff_forall_sublist.mp apart twice listed rfl rfl
    by_cases inside : unit ∈ config.units
    · have := List.count_pos_iff.mpr inside
      simp only [listed, inside, and_self, if_true]
      omega
    · simp [listed, inside, List.count_eq_zero_of_not_mem inside]
  · simp [listed]

theorem fst_of_mem_artifacts {grouped : List Text} {config : TreeConfig} {rule : Rule}
    (h : rule ∈ config.rules grouped) {entry : Text × SourceUnit}
    (inside : entry ∈ rule.artifacts) : entry.1 = entry.2.graphTarget := by
  rcases List.mem_append.mp h with own | group
  · obtain ⟨unit, -, own⟩ := List.mem_flatMap.mp own
    rcases List.mem_cons.mp own with rfl | own
    · simp [Rule.artifacts] at inside
    · split at own
      · simp at own
      · obtain rfl := List.mem_singleton.mp own
        obtain rfl := List.mem_singleton.mp inside
        rfl
  · obtain ⟨type, -, rfl⟩ := List.mem_map.mp group
    obtain ⟨unit, -, rfl⟩ := List.mem_map.mp inside
    rfl

/-- A plan fails exactly if two units of a listed type have one name. Else it is the rules
of the units, each behind the one before, and then those of the listed types; each unit is in
one rule that makes graphs, under its own target. -/
theorem plan_covers_units (config : TreeConfig) (grouped : List Text) :
    (∃ unit twin, [unit, twin].Sublist config.units ∧ unit.Twins grouped twin ∧
        config.plan grouped = .error (.duplicate twin.type twin.name)) ∨
      config.units.Pairwise (SourceUnit.Apart grouped) ∧
        config.plan grouped = .ok (config.rules grouped) ∧
        (∀ unit, (config.rules grouped).countP (Rule.makes unit) = config.units.count unit) ∧
        ∀ rule ∈ config.rules grouped, ∀ entry ∈ rule.artifacts,
          entry.1 = entry.2.graphTarget := by
  rcases Draft.foldlM_add_of grouped [] config.units with ⟨unit, twin, both, twins, refused⟩ | run
  · refine .inl ⟨unit, twin, both, twins, ?_⟩
    rw [plan]
    exact congrArg (Except.map Draft.finish) refused
  · have planned : config.plan grouped = .ok (config.rules grouped) := by
      rw [plan]
      refine (congrArg (Except.map Draft.finish) run).trans ?_
      simp [Except.map, Draft.finish, Draft.of, rules]
    have apart := exists_plan_iff.mp ⟨_, planned⟩
    exact .inr ⟨apart, planned, countP_rules apart, fun rule h entry => fst_of_mem_artifacts h⟩

end TreeConfig

end IndexCoverage
