import IndexCoverage.Proofs.Graph.Checking
import IndexCoverage.Proofs.Graph.Loading
import IndexCoverage.Proofs.Plan.Reading
import Mathlib.Data.List.Perm.Basic

/-! Documents that list the same source units, definitions and references in another
order. What one of them holds is there in the other one too, in another order. -/

namespace IndexCoverage
namespace Json

/-- The names of the fields that list source units, definitions or references. -/
def listNames : List Text :=
  ["SourceUnits", FieldName.defs.artifact, FieldName.defs.plain, FieldName.refs.artifact,
    FieldName.refs.plain]

/-- The same value, or under one of those names the same list in another order. -/
inductive SameUnder (name : Text) : Value → Value → Prop
  | value (value : Value) : SameUnder name value value
  | items {items more : List Value} (named : name ∈ listNames) (perm : items.Perm more) :
    SameUnder name (.arr items) (.arr more)

abbrev SameFields : List (Text × Value) → List (Text × Value) → Prop :=
  List.Forall₂ fun a b => a.1 = b.1 ∧ SameUnder a.1 a.2 b.2

/-- The same document up to the order of the units, definitions and references that it lists. -/
inductive Reordered : Value → Value → Prop
  | value (value : Value) : Reordered value value
  | fields {fields others : List (Text × Value)} (same : SameFields fields others) :
    Reordered (.obj fields) (.obj others)

theorem SameFields.lookup {fields others : List (Text × Value)} (h : SameFields fields others)
    (name : Text) :
    others.lookup name = fields.lookup name ∨
      ∃ items more, fields.lookup name = some (.arr items) ∧
        others.lookup name = some (.arr more) ∧ items.Perm more := by
  induction h with
  | nil => exact .inl rfl
  | @cons first second fields others same rest ih =>
    obtain ⟨key, value⟩ := first
    obtain ⟨key', value'⟩ := second
    obtain ⟨rfl, same⟩ := same
    by_cases here : name = key
    · subst here
      simp only [List.lookup_cons_self]
      cases same with
      | value => exact .inl rfl
      | items named perm => exact .inr ⟨_, _, rfl, rfl, perm⟩
    · have apart : (name == key) = false := beq_eq_false_iff_ne.mpr here
      simpa only [List.lookup_cons, apart] using ih

end Json

open Json

/-- Null is never a list, so that it stands for the default in both documents or in neither. -/
theorem FieldName.find?_same {fields others : List (Text × Value)} (h : SameFields fields others)
    (name : FieldName) :
    name.find? others = name.find? fields ∨
      ∃ key items more, name.find? fields = some (key, .arr items) ∧
        name.find? others = some (key, .arr more) ∧ items.Perm more := by
  unfold FieldName.find?
  rcases h.lookup name.artifact with same | ⟨items, more, first, second, perm⟩
  · rw [same]
    cases fields.lookup name.artifact with
    | some value => exact .inl rfl
    | none =>
      rcases h.lookup name.plain with same | ⟨items, more, first, second, perm⟩
      · rw [same]
        exact .inl rfl
      · rw [first, second]
        exact .inr ⟨_, _, _, rfl, rfl, perm⟩
  · rw [first, second]
    exact .inr ⟨_, _, _, rfl, rfl, perm⟩

namespace TreeConfig

theorem readUnit_eq_ok {item : Value} {unit : SourceUnit} {index : Nat}
    (h : readUnit index item = .ok unit) (other : Nat) : readUnit other item = .ok unit := by
  unfold readUnit at h ⊢
  split at h
  · split at h
    · exact h
    · simp at h
  · simp at h

theorem readUnits_eq_ok_iff {items : List Value} {units : List SourceUnit} (index : Nat) :
    readUnits index items = .ok units ↔
      List.Forall₂ (fun item unit => readUnit 0 item = .ok unit) items units := by
  induction items generalizing units index with
  | nil => cases units <;> simp [readUnits]
  | cons item rest ih =>
    simp only [readUnits, do_eq_ok_iff, pure_eq_ok_iff, ih, List.forall₂_cons_left_iff]
    constructor
    · rintro ⟨unit, first, more, others, rfl⟩
      exact ⟨unit, more, readUnit_eq_ok first 0, others, rfl⟩
    · rintro ⟨unit, more, first, others, rfl⟩
      exact ⟨unit, readUnit_eq_ok first index, more, others, rfl⟩

theorem readUnits_perm {items more : List Value} {units : List SourceUnit} (h : items.Perm more)
    (read : readUnits 0 items = .ok units) :
    ∃ others, readUnits 0 more = .ok others ∧ units.Perm others := by
  rw [readUnits_eq_ok_iff] at read
  obtain ⟨others, all, perm⟩ := List.perm_comp_forall₂ h.symm read
  exact ⟨others, (readUnits_eq_ok_iff 0).mpr all, perm.symm⟩

theorem ofDocument_reordered {document other : Value} {config : TreeConfig}
    (h : Reordered document other) (read : ofDocument document = .ok config) :
    ∃ more, ofDocument other = .ok more ∧ config.units.Perm more.units := by
  cases h with
  | value => exact ⟨config, read, .refl _⟩
  | @fields fields others same =>
    rcases same.lookup (Text.ofString "SourceUnits") with
      same | ⟨items, more, first, second, perm⟩
    · refine ⟨config, ?_, .refl _⟩
      rw [ofDocument, get?, same]
      exact read
    · rw [ofDocument_of_items first] at read
      rw [ofDocument_of_items second]
      cases made : readUnits 0 items with
      | error e => simp [made, Except.map] at read
      | ok units =>
        rw [made] at read
        obtain rfl := Except.ok.inj read
        obtain ⟨again, there, perm⟩ := readUnits_perm perm made
        exact ⟨⟨again⟩, by rw [there]; rfl, perm⟩

end TreeConfig

section Lists

variable {α : Type} {read : List Step → Value → Check (Option α)}
  (alike : ∀ place other item, Check.Alike (read place item) (read other item))

include alike

theorem readList_adds (place : List Step) (fields : List (Text × Value)) (name : FieldName) :
    (readList place fields read name).Adds := by
  unfold readList
  split
  · exact (Check.alike_pure []).adds
  · exact readItems_adds alike _ 0 _
  · exact ((Check.alike_report _ place _).bind fun _ => Check.alike_pure []).adds

theorem readList_reordered {fields others : List (Text × Value)} (h : SameFields fields others)
    (place : List Step) (name : FieldName) :
    ((readList place fields read name).problems = [] ↔
        (readList place others read name).problems = []) ∧
      (readList place fields read name).value.Perm (readList place others read name).value := by
  rcases FieldName.find?_same h name with same | ⟨key, items, more, first, second, perm⟩
  · have whole : readList place others read name = readList place fields read name := by
      rw [readList, same]
      rfl
    rw [whole]
    exact ⟨Iff.rfl, .refl _⟩
  · have here : readList place fields read name =
        readItems read (place ++ [.field key]) 0 items := by rw [readList, first]
    have there : readList place others read name =
        readItems read (place ++ [.field key]) 0 more := by rw [readList, second]
    rw [here, there, value_readItems alike, value_readItems alike,
      problems_readItems_eq_nil_iff alike, problems_readItems_eq_nil_iff alike]
    exact ⟨by simp only [perm.mem_iff], perm.flatMap_right _⟩

end Lists

namespace Artifact

theorem decode_obj_eq_ok_iff {fields : List (Text × Value)} {artifact : Artifact} :
    decode (.obj fields) = .ok artifact ↔
      ((readList [] fields Definition.read .defs).problems = [] ∧
        (readList [] fields Definition.read .defs).value = artifact.defs) ∧
      (readList [] fields Reference.read .refs).problems = [] ∧
        (readList [] fields Reference.read .refs).value = artifact.refs := by
  have defs := readList_adds Definition.read_alike [] fields .defs
  have refs := readList_adds Reference.read_alike [] fields .refs
  obtain ⟨made, value, problems⟩ := refs.map
    (Artifact.mk (readList [] fields Definition.read .defs).value)
  rw [decode, Check.run_eq_ok_iff, Artifact.read, defs.problems_bind made, defs.value_bind made,
    value, problems, List.append_eq_nil_iff]
  cases artifact
  simp only [Artifact.mk.injEq]
  exact ⟨fun h => ⟨⟨h.1.1, h.2.1⟩, h.1.2, h.2.2⟩, fun h => ⟨⟨h.1.1, h.2.1⟩, h.1.2, h.2.2⟩⟩

theorem decode_reordered {document other : Value} {artifact : Artifact}
    (h : Reordered document other) (decoded : decode document = .ok artifact) :
    ∃ more, decode other = .ok more ∧ artifact.defs.Perm more.defs ∧
      artifact.refs.Perm more.refs := by
  cases h with
  | value => exact ⟨artifact, decoded, .refl _, .refl _⟩
  | @fields fields others same =>
    obtain ⟨⟨noDefs, defs⟩, noRefs, refs⟩ := decode_obj_eq_ok_iff.mp decoded
    have defsSame := readList_reordered Definition.read_alike same [] .defs
    have refsSame := readList_reordered Reference.read_alike same [] .refs
    refine ⟨⟨_, _⟩, decode_obj_eq_ok_iff.mpr
      ⟨⟨defsSame.1.mp noDefs, rfl⟩, refsSame.1.mp noRefs, rfl⟩, ?_, ?_⟩
    · exact defs ▸ defsSame.2
    · exact refs ▸ refsSame.2

def SameLists (artifact other : Artifact) : Prop :=
  artifact.defs.Perm other.defs ∧ artifact.refs.Perm other.refs

theorem SameLists.normalize {artifact other : Artifact} (h : artifact.SameLists other)
    (unit : SourceUnit) : (artifact.normalize unit).SameLists (other.normalize unit) :=
  ⟨h.1, h.2.map _⟩

end Artifact

/-- On the other disk the store has the same documents, up to the order of what they list. -/
def Store.Reordered (store : Store) (disk other : Disk) : Prop :=
  ∀ name, store.readJson other name = store.readJson disk name ∨
    ∃ document more, store.readJson disk name = .ok document ∧
      store.readJson other name = .ok more ∧ Json.Reordered document more

theorem findArtifact_of_readJson {disk : Disk} {store : Store} {target : Text} {document : Value}
    (read : store.readJson disk target = .ok document) :
    findArtifact disk store target =
      match Artifact.decode document with
      | .ok artifact => .ok (.artifact artifact)
      | .error problems => .error (.fault (.artifact problems)) := by
  cases decoded : Artifact.decode document <;> simp only [findArtifact, read, decoded]

section Loading

variable {disk other : Disk} {store : Store} (h : store.Reordered disk other)

include h

theorem TreeConfig.read_reordered {config : TreeConfig} (found : read disk store = .ok config) :
    ∃ more, read other store = .ok more ∧ config.units.Perm more.units := by
  rw [read] at found ⊢
  rcases h fileName with same | ⟨document, more, first, second, reordered⟩
  · rw [same]
    exact ⟨config, found, .refl _⟩
  · rw [first] at found
    rw [second]
    exact ofDocument_reordered reordered found

theorem findArtifact_reordered {target : Text} {found : Found}
    (here : findArtifact disk store target = .ok found) :
    findArtifact other store target = .ok found ∨
      ∃ artifact more, found = .artifact artifact ∧
        findArtifact other store target = .ok (.artifact more) ∧ artifact.SameLists more := by
  rcases h target with same | ⟨document, more, first, second, reordered⟩
  · rw [findArtifact, same]
    exact .inl here
  · rw [findArtifact_of_readJson first] at here
    rw [findArtifact_of_readJson second]
    cases decoded : Artifact.decode document with
    | error problems => simp [decoded] at here
    | ok artifact =>
      obtain ⟨again, there, lists⟩ := Artifact.decode_reordered reordered decoded
      rw [decoded] at here
      obtain rfl := Except.ok.inj here
      exact .inr ⟨artifact, again, rfl, by rw [there], lists⟩

theorem loadFailure?_reordered {target : Text × SourceUnit}
    (readable : loadFailure? disk store target = none) :
    loadFailure? other store target = none := by
  simp only [loadFailure?, loadCause?, Option.map_eq_none_iff] at readable ⊢
  cases here : findArtifact disk store target.1 with
  | error cause => simp [here] at readable
  | ok found =>
    rcases findArtifact_reordered h here with same | ⟨artifact, more, -, there, -⟩
    · rw [same]
    · rw [there]

theorem loaded?_reordered {target : Text × SourceUnit}
    (readable : loadFailure? disk store target = none) :
    Option.Rel (fun a b => a.1 = b.1 ∧ a.2.SameLists b.2) (loaded? disk store target)
      (loaded? other store target) := by
  simp only [loadFailure?, loadCause?, Option.map_eq_none_iff] at readable
  cases here : findArtifact disk store target.1 with
  | error cause => simp [here] at readable
  | ok found =>
    rcases findArtifact_reordered h here with same | ⟨artifact, more, rfl, there, lists⟩
    · rw [loaded?, loaded?, here, same]
      cases found with
      | artifact artifact => exact .some ⟨rfl, .refl _, .refl _⟩
      | empty => exact .none
      | missing => exact .none
    · rw [loaded?, loaded?, here, there]
      exact .some ⟨rfl, lists⟩

theorem filterMap_loaded?_reordered {targets : List (Text × SourceUnit)}
    (readable : ∀ target ∈ targets, loadFailure? disk store target = none) :
    List.Forall₂ (fun a b => a.1 = b.1 ∧ a.2.SameLists b.2)
      (targets.filterMap (loaded? disk store)) (targets.filterMap (loaded? other store)) := by
  induction targets with
  | nil => exact .nil
  | cons target rest ih =>
    have first := loaded?_reordered h (readable target (List.mem_cons_self ..))
    have others := ih fun other inside => readable other (List.mem_cons_of_mem _ inside)
    rw [List.filterMap_cons, List.filterMap_cons]
    generalize loaded? disk store target = here at first ⊢
    generalize loaded? other store target = there at first ⊢
    cases first with
    | none => exact others
    | some same => exact .cons same others

end Loading
end IndexCoverage
