import IndexCoverage.Graph.Decode

/-! What a check comes to. Checks only add problems and never look at those before them,
so that a check has a value and problems of its own. Where it is made shows in the
problems alone: neither the value nor whether there are problems depends on it. The items
of a list are therefore read one by one, in whatever order. -/

namespace IndexCoverage
namespace Check

variable {α β : Type}

def value (check : Check α) : α := (StateT.run check []).1

def problems (check : Check α) : List Problem := (StateT.run check []).2

theorem run_eq_ok_iff {check : Check α} {result : α} :
    check.run = .ok result ↔ check.problems = [] ∧ check.value = result := by
  unfold run value problems
  generalize StateT.run check [] = final
  obtain ⟨found, _ | ⟨first, rest⟩⟩ := final <;> simp

def Adds (check : Check α) : Prop :=
  ∀ before, StateT.run check before = (check.value, before ++ check.problems)

/-- Two checks that differ in nothing but where their problems are. -/
structure Alike (check other : Check α) : Prop where
  adds : check.Adds
  adds_other : other.Adds
  value : check.value = other.value
  problems : check.problems = [] ↔ other.problems = []

theorem alike_pure (result : α) : Alike (pure result) (pure result : Check α) := by
  have adds : (pure result : Check α).Adds := fun before => by
    change (result, before) = (result, before ++ [])
    rw [List.append_nil]
  exact ⟨adds, adds, rfl, Iff.rfl⟩

theorem alike_report (place other : List Step) (mismatch : Mismatch) :
    Alike (report place mismatch) (report other mismatch) := by
  constructor
  · exact fun before => rfl
  · exact fun before => rfl
  · rfl
  · change [(⟨place, mismatch⟩ : Problem)] = [] ↔ [(⟨other, mismatch⟩ : Problem)] = []
    simp

theorem Adds.run_bind {check : Check α} {next : α → Check β} (first : check.Adds)
    (second : (next check.value).Adds) (before : List Problem) :
    StateT.run (check >>= next) before =
      ((next check.value).value, before ++ (check.problems ++ (next check.value).problems)) := by
  rw [StateT.run_bind, first before]
  change StateT.run (next check.value) (before ++ check.problems) = _
  rw [second, List.append_assoc]

theorem Adds.value_bind {check : Check α} {next : α → Check β} (first : check.Adds)
    (second : (next check.value).Adds) : (check >>= next).value = (next check.value).value := by
  rw [value, first.run_bind second]

theorem Adds.problems_bind {check : Check α} {next : α → Check β} (first : check.Adds)
    (second : (next check.value).Adds) :
    (check >>= next).problems = check.problems ++ (next check.value).problems := by
  rw [problems, first.run_bind second, List.nil_append]

theorem Adds.bind {check : Check α} {next : α → Check β} (first : check.Adds)
    (second : (next check.value).Adds) : (check >>= next).Adds := by
  intro before
  rw [first.run_bind second, first.value_bind second, first.problems_bind second]

theorem Adds.map {check : Check α} (first : check.Adds) (g : α → β) :
    (check >>= fun found => pure (g found)).Adds ∧
      (check >>= fun found => pure (g found)).value = g check.value ∧
      (check >>= fun found => pure (g found)).problems = check.problems := by
  have last := (alike_pure (g check.value)).adds
  refine ⟨first.bind last, first.value_bind last, (first.problems_bind last).trans ?_⟩
  exact List.append_nil _

theorem Alike.bind {check other : Check α} {next more : α → Check β} (first : Alike check other)
    (second : ∀ found, Alike (next found) (more found)) :
    Alike (check >>= next) (other >>= more) := by
  have here := second check.value
  have there := second other.value
  constructor
  · exact first.adds.bind here.adds
  · exact first.adds_other.bind there.adds_other
  · rw [first.adds.value_bind here.adds, first.adds_other.value_bind there.adds_other,
      here.value, first.value]
  · have same := first.value ▸ here.problems
    rw [first.adds.problems_bind here.adds, first.adds_other.problems_bind there.adds_other,
      List.append_eq_nil_iff, List.append_eq_nil_iff, first.problems, here.problems, first.value]

end Check

open Check

theorem readField_alike {α : Type} (place other : List Step) (fields : List (Text × Json.Value))
    (convert : Json.Value → Except Mismatch α) (default : α) (name : FieldName) :
    Alike (readField place fields convert default name)
      (readField other fields convert default name) := by
  unfold readField
  cases name.find? fields with
  | none => exact alike_pure default
  | some found =>
    obtain ⟨key, value⟩ := found
    dsimp only
    cases convert value with
    | ok result => exact alike_pure result
    | error mismatch => exact (alike_report _ _ mismatch).bind fun _ => alike_pure default

theorem Definition.read_alike (place other : List Step) (item : Json.Value) :
    Alike (Definition.read place item) (Definition.read other item) := by
  cases item with
  | obj fields =>
    iterate 9 refine (readField_alike place other fields _ _ _).bind fun _ => ?_
    exact alike_pure _
  | _ => exact (alike_report place other _).bind fun _ => alike_pure none

theorem Reference.read_alike (place other : List Step) (item : Json.Value) :
    Alike (Reference.read place item) (Reference.read other item) := by
  cases item with
  | obj fields =>
    iterate 10 refine (readField_alike place other fields _ _ _).bind fun _ => ?_
    exact alike_pure _
  | _ => exact (alike_report place other _).bind fun _ => alike_pure none

section Items

variable {α : Type} {read : List Step → Json.Value → Check (Option α)}
  (alike : ∀ place other item, Alike (read place item) (read other item))

include alike

theorem readItems_adds (place : List Step) (index : Nat) (items : List Json.Value) :
    (readItems read place index items).Adds := by
  induction items generalizing index with
  | nil => exact (alike_pure []).adds
  | cons item rest ih => exact (alike _ [] item).adds.bind ((ih _).map _).1

theorem value_readItems (place : List Step) (index : Nat) (items : List Json.Value) :
    (readItems read place index items).value =
      items.flatMap fun item => (read [] item).value.toList := by
  induction items generalizing index with
  | nil => rfl
  | cons item rest ih =>
    have first := alike (place ++ [.item index]) [] item
    have others := readItems_adds alike place (index + 1) rest
    obtain ⟨joined, value, -⟩ :=
      others.map ((read (place ++ [.item index]) item).value.toList ++ ·)
    rw [readItems, first.adds.value_bind joined, value, ih, first.value]
    rfl

theorem problems_readItems_eq_nil_iff (place : List Step) (index : Nat)
    (items : List Json.Value) :
    (readItems read place index items).problems = [] ↔
      ∀ item ∈ items, (read [] item).problems = [] := by
  induction items generalizing index with
  | nil =>
    have none : (readItems read place index []).problems = [] := rfl
    simp [none]
  | cons item rest ih =>
    have first := alike (place ++ [.item index]) [] item
    have others := readItems_adds alike place (index + 1) rest
    obtain ⟨joined, -, problems⟩ :=
      others.map ((read (place ++ [.item index]) item).value.toList ++ ·)
    rw [readItems, first.adds.problems_bind joined, problems, List.append_eq_nil_iff,
      first.problems, ih]
    simp

end Items
end IndexCoverage
