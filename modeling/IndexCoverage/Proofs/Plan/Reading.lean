import IndexCoverage.Json.Writer
import IndexCoverage.Proofs.Disk.Walk
import IndexCoverage.Proofs.Graph.Loading

/-! What reading the configuration of a tree comes to. Each entry is read by itself, so that the
first one with a fault settles the kind of the failure. All faults but one are reported as those
of a plan: an entry whose files are neither a text, a list nor an object goes unreported. -/

namespace IndexCoverage
namespace TreeConfig

open Json (Value)

/-- True, or a number that is not zero: a value that counts and has no items. -/
def IsUnlistable : Value → Prop
  | .bool b => b = true
  | .int n => n ≠ 0
  | .float x => x.isZero = false
  | _ => False

def IsNamed (name type : Text) (entry : Value) : Prop :=
  ∃ fields, entry = .obj fields ∧ Json.get? "Name" fields = some (.str name) ∧ name ≠ [] ∧
    Json.get? "Type" fields = some (.str type) ∧ type ≠ []

def IsStuck (entry : Value) : Prop :=
  (∃ name type, IsNamed name type entry) ∧
    ∃ fields files, entry = .obj fields ∧ Json.get? "Files" fields = some files ∧
      IsUnlistable files

/-- An entry is stuck, and all before it have a name and a type. -/
inductive Sticks : List Value → Prop where
  | here {entry : Value} {rest : List Value} (stuck : IsStuck entry) : Sticks (entry :: rest)
  | there {entry : Value} {rest : List Value} {name type : Text} (named : IsNamed name type entry)
      (later : Sticks rest) : Sticks (entry :: rest)

theorem not_sticks_nil : ¬Sticks [] := fun sticks => by cases sticks

theorem namesIn_cases (value : Value) :
    (∃ names, namesIn value = .ok names) ∧ ¬IsUnlistable value ∨
      namesIn value = .error (.fault .notIterable) ∧ IsUnlistable value := by
  cases value with
  | null => exact .inl ⟨⟨[], rfl⟩, id⟩
  | bool b => cases b <;> simp [namesIn, IsUnlistable, Value.counts]
  | int n => by_cases zero : n = 0 <;> simp [namesIn, IsUnlistable, Value.counts, zero]
  | float x => cases zero : x.isZero <;> simp [namesIn, IsUnlistable, Value.counts, zero]
  | str s => exact .inl ⟨⟨_, rfl⟩, id⟩
  | arr items => exact .inl ⟨⟨_, rfl⟩, id⟩
  | obj fields => exact .inl ⟨⟨_, rfl⟩, id⟩

theorem someText?_eq_some_iff {value : Option Value} {text : Text} :
    someText? value = some text ↔ value = some (.str text) ∧ text ≠ [] := by
  unfold someText?
  split
  · next s =>
    cases s with
    | nil => simp
    | cons c s =>
      simp only [List.isEmpty_cons, Bool.false_eq_true, if_false, Option.some.injEq,
        Value.str.injEq]
      exact ⟨fun same => ⟨same, same ▸ List.cons_ne_nil c s⟩, And.left⟩
  · next other =>
    simp only [reduceCtorEq, false_iff, not_and]
    exact fun same => absurd same (other text)

theorem isNamed_obj_iff {name type : Text} {fields : List (Text × Value)} :
    IsNamed name type (.obj fields) ↔
      someText? (Json.get? "Name" fields) = some name ∧
        someText? (Json.get? "Type" fields) = some type := by
  simp only [IsNamed, Value.obj.injEq, exists_eq_left', someText?_eq_some_iff, and_assoc]

theorem isStuck_obj_iff {fields : List (Text × Value)} :
    IsStuck (.obj fields) ↔ (∃ name type, IsNamed name type (.obj fields)) ∧
      IsUnlistable ((Json.get? "Files" fields).getD .null) := by
  simp only [IsStuck, Value.obj.injEq, exists_and_left, exists_eq_left']
  cases Json.get? "Files" fields <;> simp [IsUnlistable]

theorem readUnit_cases (index : Nat) (entry : Value) :
    (∃ unit, readUnit index entry = .ok unit ∧ IsNamed unit.name unit.type entry ∧
        ¬IsStuck entry) ∨
      (∃ e, readUnit index entry = .error (.plan e) ∧ ∀ name type, ¬IsNamed name type entry) ∨
      readUnit index entry = .error (.fault .notIterable) ∧ IsStuck entry := by
  cases entry with
  | obj fields =>
    simp only [isStuck_obj_iff, isNamed_obj_iff, readUnit]
    cases someText? (Json.get? "Name" fields) with
    | none => exact .inr (.inl ⟨_, rfl, fun name type both => by simp at both⟩)
    | some name =>
      cases someText? (Json.get? "Type" fields) with
      | none => exact .inr (.inl ⟨_, rfl, fun name type both => by simp at both⟩)
      | some type =>
        rcases namesIn_cases ((Json.get? "Files" fields).getD .null) with
          ⟨⟨files, listed⟩, listable⟩ | ⟨failed, unlistable⟩
        · exact .inl ⟨_, by rw [listed]; rfl, ⟨rfl, rfl⟩, fun stuck => listable stuck.2⟩
        · exact .inr (.inr ⟨by rw [failed]; rfl, ⟨name, type, rfl, rfl⟩, unlistable⟩)
  | _ =>
    refine .inr (.inl ⟨_, rfl, fun name type named => ?_⟩)
    obtain ⟨fields, same, -⟩ := named
    cases same

theorem readUnits_cases (index : Nat) (entries : List Value) :
    (∃ units, readUnits index entries = .ok units ∧
        List.Forall₂ (fun entry unit => IsNamed unit.name unit.type entry) entries units ∧
        ¬Sticks entries) ∨
      (∃ e, readUnits index entries = .error (.plan e)) ∧ ¬Sticks entries ∨
      readUnits index entries = .error (.fault .notIterable) ∧ Sticks entries := by
  induction entries generalizing index with
  | nil => exact .inl ⟨[], rfl, .nil, not_sticks_nil⟩
  | cons entry rest ih =>
    rw [readUnits]
    rcases readUnit_cases index entry with
      ⟨unit, read, named, free⟩ | ⟨⟨e, failed, unnamed⟩ | ⟨failed, stuck⟩⟩
    · have sticks_iff : Sticks (entry :: rest) ↔ Sticks rest := by
        constructor
        · intro sticks
          cases sticks with
          | here stuck => exact absurd stuck free
          | there _ later => exact later
        · exact .there named
      rw [read, sticks_iff]
      rcases ih (index + 1) with
        ⟨units, others, all, free⟩ | ⟨⟨e, failed⟩, free⟩ | ⟨failed, sticks⟩
      · exact .inl ⟨unit :: units, by rw [others]; rfl, .cons named all, free⟩
      · exact .inr (.inl ⟨⟨e, by rw [failed]; rfl⟩, free⟩)
      · exact .inr (.inr ⟨by rw [failed]; rfl, sticks⟩)
    · rw [failed]
      refine .inr (.inl ⟨⟨e, rfl⟩, fun sticks => ?_⟩)
      cases sticks with
      | here stuck =>
        obtain ⟨⟨name, type, named⟩, -⟩ := stuck
        exact unnamed name type named
      | there named _ => exact unnamed _ _ named
    · rw [failed]
      exact .inr (.inr ⟨rfl, .here stuck⟩)

def entries : Value → List Value
  | .obj fields =>
    match Json.get? "SourceUnits" fields with
    | some (.arr items) => items
    | _ => []
  | _ => []

theorem ofDocument_of_items {fields : List (Text × Value)} {items : List Value}
    (listed : fields.lookup (Text.ofString "SourceUnits") = some (.arr items)) :
    ofDocument (.obj fields) = (readUnits 0 items).map TreeConfig.mk := by
  rw [ofDocument, Json.get?, listed]
  cases items <;> rfl

theorem ofDocument_of_no_items {fields : List (Text × Value)} {value : Value}
    (found : Json.get? "SourceUnits" fields = some value) (other : ∀ items, value ≠ .arr items) :
    ofDocument (.obj fields) =
      if value.counts then .error (.plan .unitsNotList) else .ok ⟨[]⟩ := by
  rw [ofDocument, found, Option.filter_some]
  by_cases counts : value.counts = true
  · rw [if_pos counts, if_pos counts]
    cases value with
    | arr items => exact absurd rfl (other items)
    | _ => rfl
  · rw [if_neg counts, if_neg counts]

theorem ofDocument_cases (document : Value) :
    (∃ config, ofDocument document = .ok config ∧
        List.Forall₂ (fun entry unit => IsNamed unit.name unit.type entry) (entries document)
          config.units ∧
        ¬Sticks (entries document)) ∨
      (∃ e, ofDocument document = .error (.plan e)) ∧ ¬Sticks (entries document) ∨
      ofDocument document = .error (.fault .notIterable) ∧ Sticks (entries document) := by
  cases document with
  | obj fields =>
    cases found : Json.get? "SourceUnits" fields with
    | none =>
      refine .inl ⟨⟨[]⟩, by rw [ofDocument, found]; rfl, ?_⟩
      rw [entries, found]
      exact ⟨.nil, not_sticks_nil⟩
    | some value =>
      cases value with
      | arr items =>
        have listed : entries (.obj fields) = items := by rw [entries, found]
        rw [listed, ofDocument_of_items found]
        rcases readUnits_cases 0 items with
          ⟨units, read, all, free⟩ | ⟨⟨e, failed⟩, free⟩ | ⟨failed, sticks⟩
        · exact .inl ⟨⟨units⟩, by rw [read]; rfl, all, free⟩
        · exact .inr (.inl ⟨⟨e, by rw [failed]; rfl⟩, free⟩)
        · exact .inr (.inr ⟨by rw [failed]; rfl, sticks⟩)
      | _ =>
        have unlisted : entries (.obj fields) = [] := by rw [entries, found]
        rw [unlisted, ofDocument_of_no_items found (by simp)]
        split
        · exact .inr (.inl ⟨⟨_, rfl⟩, not_sticks_nil⟩)
        · exact .inl ⟨_, rfl, .nil, not_sticks_nil⟩
  | _ => exact .inr (.inl ⟨⟨_, rfl⟩, not_sticks_nil⟩)

/-- The configuration of a store is read, with one unit for each entry, or it is reported
that it cannot be. -/
def Reported (disk : Disk) (store : Store) : Prop :=
  (∃ document config, store.readJson disk fileName = .ok document ∧
      read disk store = .ok config ∧
      List.Forall₂ (fun entry unit => IsNamed unit.name unit.type entry) (entries document)
        config.units) ∨
    ∃ e, read disk store = .error (.plan e)

/-- A configuration that does not nest too far is read or reported, unless its entries
are stuck. -/
theorem read_reported_iff {disk : Disk} {store : Store}
    (shallow : ∀ bracket, store.readJson disk fileName ≠ .error (.fault (.tooDeep bracket))) :
    Reported disk store ↔
      ∀ document, store.readJson disk fileName = .ok document → ¬Sticks (entries document) := by
  cases found : store.readJson disk fileName with
  | ok document =>
    have read_eq : read disk store = ofDocument document := by rw [read, found]
    simp only [Reported, read_eq, found, Except.ok.injEq, forall_eq', exists_and_left,
      exists_eq_left']
    rcases ofDocument_cases document with
      ⟨config, made, all, free⟩ | ⟨⟨e, failed⟩, free⟩ | ⟨failed, sticks⟩
    · exact iff_of_true (.inl ⟨config, made, all⟩) free
    · exact iff_of_true (.inr ⟨e, failed⟩) free
    · rw [failed]
      exact iff_of_false (by simp) (not_not_intro sticks)
  | error e =>
    have reported : ∃ cause, read disk store = .error (.plan cause) := by
      rw [read, found]
      split
      · next same => simp at same
      · next bracket same => exact absurd (found.trans same) (shallow bracket)
      · exact ⟨_, rfl⟩
    exact iff_of_true (.inr reported) (fun document same => by simp at same)

section Configured

def entriesBytes (entries : List Value) : Bytes :=
  Text.toUtf8 (Json.write Json.compact 0 (.obj [("SourceUnits", .arr entries)]))

def entriesDisk (entries : List Value) : Disk where
  top := .dir [("config.json", .file (entriesBytes entries))]
  workDir := []
  home := "/"

def topStore : Store := ⟨⟨.root, []⟩, 970⟩

theorem readJson_entriesDisk {entries : List Value} {document : Value}
    (decoded : Store.decode topStore.depth fileName (entriesBytes entries) = .ok document) :
    topStore.readJson (entriesDisk entries) fileName = .ok document := by
  have located : topStore.locate fileName = .ok ⟨.root, ["config.json"]⟩ := rfl
  have read : topStore.read (entriesDisk entries) fileName = .ok (entriesBytes entries) :=
    Store.read_of_walk located rfl rfl rfl (by decide) rfl rfl
  rw [Store.readJson_of_read read, decoded]

def countedFiles : Value := .obj [("Name", .str "a"), ("Type", .str "b"), ("Files", .int 3)]

def typelessFirst : List Value := [.obj [("Name", .str "a")], countedFiles]

theorem read_reported_typeless :
    (∀ bracket, topStore.readJson (entriesDisk typelessFirst) fileName ≠
        .error (.fault (.tooDeep bracket))) ∧
      (Reported (entriesDisk typelessFirst) topStore ↔
        ∀ document, topStore.readJson (entriesDisk typelessFirst) fileName = .ok document →
          ¬Sticks (entries document)) := by
  have found : topStore.readJson (entriesDisk typelessFirst) fileName =
      .ok (.obj [("SourceUnits", .arr typelessFirst)]) :=
    readJson_entriesDisk (by decide +kernel)
  have shallow (bracket : Json.Bracket) :
      topStore.readJson (entriesDisk typelessFirst) fileName ≠
        .error (.fault (.tooDeep bracket)) := by
    rw [found]
    exact nofun
  exact ⟨shallow, read_reported_iff shallow⟩

/-- Files that are a number are no fault of a plan. -/
theorem read_unreported :
    topStore.readJson (entriesDisk [countedFiles]) fileName =
        .ok (.obj [("SourceUnits", .arr [countedFiles])]) ∧
      read (entriesDisk [countedFiles]) topStore = .error (.fault .notIterable) ∧
      ¬Reported (entriesDisk [countedFiles]) topStore := by
  have found : topStore.readJson (entriesDisk [countedFiles]) fileName =
      .ok (.obj [("SourceUnits", .arr [countedFiles])]) :=
    readJson_entriesDisk (by decide +kernel)
  have failed : read (entriesDisk [countedFiles]) topStore = .error (.fault .notIterable) := by
    rw [read, found]
    rfl
  refine ⟨found, failed, ?_⟩
  rintro (⟨document, config, -, made, -⟩ | ⟨e, reported⟩)
  · simp [failed] at made
  · simp [failed] at reported

end Configured

end TreeConfig
end IndexCoverage
