import IndexCoverage.Graph.Decode
import IndexCoverage.Proofs.Json.Keys
import IndexCoverage.Proofs.Text.Appearance

/-! What can be left out of the document of an artifact. Fields that are null, and fields that go by
no name that is asked for, make no difference: neither to the artifact nor to the problems that are
reported in its place. -/

namespace IndexCoverage

open Json (Value)

def FieldName.keys (name : FieldName) : List Text := [name.artifact, name.plain]

def Definition.fieldNames : List FieldName :=
  [.repo, .unitType, .unit, .path, .name, .kind, .file, .start, .stop]

def Reference.fieldNames : List FieldName :=
  [.defRepo, .defUnitType, .defUnit, .defPath, .repo, .unitType, .unit, .file, .start, .stop]

def NamesApart (names : List FieldName) : Value → Prop
  | .obj fields => ∀ name ∈ names,
      name.artifact ∈ fields.map Prod.fst → name.plain ∉ fields.map Prod.fst
  | _ => True

instance (names : List FieldName) : DecidablePred (NamesApart names)
  | .obj _ => inferInstanceAs (Decidable (∀ _ ∈ _, _))
  | .null | .bool _ | .int _ | .float _ | .str _ | .arr _ => .isTrue trivial

/-- The fields, some that are null or go by no known key left out. What stays is changed as `inner`
allows it under its key. -/
inductive TrimsFields (names : List FieldName) (inner : Text → Value → Value → Prop) :
    List (Text × Value) → List (Text × Value) → Prop
  | nil : TrimsFields names inner [] []
  | keep {key : Text} {value after : Value} {fields less : List (Text × Value)}
    (within : inner key value after) (rest : TrimsFields names inner fields less) :
    TrimsFields names inner ((key, value) :: fields) ((key, after) :: less)
  | null {key : Text} {fields less : List (Text × Value)}
    (rest : TrimsFields names inner fields less) :
    TrimsFields names inner ((key, .null) :: fields) less
  | unknown {key : Text} {value : Value} {fields less : List (Text × Value)}
    (meaningless : ∀ name ∈ names, key ∉ name.keys) (rest : TrimsFields names inner fields less) :
    TrimsFields names inner ((key, value) :: fields) less

/-- An object with fields left out; whatever else there is stays as it is. -/
inductive TrimsObject (names : List FieldName) (inner : Text → Value → Value → Prop) :
    Value → Value → Prop
  | obj {fields less : List (Text × Value)} (trims : TrimsFields names inner fields less) :
    TrimsObject names inner (.obj fields) (.obj less)
  | refl (value : Value) : TrimsObject names inner value value

namespace Artifact

def lists : List (FieldName × List FieldName) :=
  [(.defs, Definition.fieldNames), (.refs, Reference.fieldNames)]

def fieldNames : List FieldName := lists.map Prod.fst

def listed (document : Value) (key : Text) : List Value :=
  match document.field? key with
  | some (.arr items) => items
  | _ => []

/-- No field of the artifact, or of what it lists, is there under both of its names. -/
def Unambiguous (document : Value) : Prop :=
  NamesApart fieldNames document ∧
    ∀ list ∈ lists, ∀ key ∈ list.1.keys, ∀ item ∈ listed document key, NamesApart list.2 item

instance : DecidablePred Unambiguous := fun _ => inferInstanceAs (Decidable (_ ∧ _))

/-- Under the key of a list its items have fields left out; any other value stays as it is. -/
inductive TrimsValue (key : Text) : Value → Value → Prop
  | refl (value : Value) : TrimsValue key value value
  | items {list : FieldName × List FieldName} {items less : List Value} (known : list ∈ lists)
    (under : key ∈ list.1.keys) (each : List.Forall₂ (TrimsObject list.2 fun _ => Eq) items less) :
    TrimsValue key (.arr items) (.arr less)

/-- The document of an artifact with fields left out, its own and those of what it lists. -/
def TrimsTo (document less : Value) : Prop := TrimsObject fieldNames TrimsValue document less

end Artifact

section Finding

variable {names : List FieldName} {name : FieldName} {inner : Text → Value → Value → Prop}
  {fields less : List (Text × Value)} {key : Text} {value : Value}

theorem FieldName.find?_eq_some_iff (distinct : (fields.map Prod.fst).Nodup)
    (apart : name.artifact ∈ fields.map Prod.fst → name.plain ∉ fields.map Prod.fst) :
    name.find? fields = some (key, value) ↔
      (key, value) ∈ fields ∧ key ∈ name.keys ∧ value ≠ .null := by
  have found (k : Text) (v : Value) : fields.lookup k = some v ↔ (k, v) ∈ fields :=
    lookup_eq_some_iff_mem distinct
  have missing (k : Text) : fields.lookup k = none ↔ ∀ v, (k, v) ∉ fields := by
    simp [Option.eq_none_iff_forall_ne_some, found]
  simp only [List.mem_map, Prod.exists] at apart
  unfold find? keys
  cases first : fields.lookup name.artifact <;> cases second : fields.lookup name.plain <;> grind

namespace TrimsFields

theorem keys_sublist (h : TrimsFields names inner fields less) :
    (less.map Prod.fst).Sublist (fields.map Prod.fst) := by
  induction h with
  | nil => exact .slnil
  | keep _ _ ih => exact ih.cons_cons _
  | null _ ih => exact ih.cons _
  | unknown _ _ ih => exact ih.cons _

theorem exists_before {after : Value} (h : TrimsFields names inner fields less)
    (left : (key, after) ∈ less) : ∃ value, (key, value) ∈ fields ∧ inner key value after := by
  induction h with
  | nil => cases left
  | keep within _ ih =>
    rcases List.mem_cons.mp left with same | left
    · obtain ⟨rfl, rfl⟩ := Prod.mk.inj same
      exact ⟨_, List.mem_cons_self .., within⟩
    · exact (ih left).imp fun _ => And.imp_left (List.mem_cons_of_mem _)
  | null _ ih => exact (ih left).imp fun _ => And.imp_left (List.mem_cons_of_mem _)
  | unknown _ _ ih => exact (ih left).imp fun _ => And.imp_left (List.mem_cons_of_mem _)

theorem exists_after (h : TrimsFields names inner fields less) (known : name ∈ names)
    (under : key ∈ name.keys) (there : (key, value) ∈ fields) (filled : value ≠ .null) :
    ∃ after, (key, after) ∈ less ∧ inner key value after := by
  induction h with
  | nil => cases there
  | keep within _ ih =>
    rcases List.mem_cons.mp there with same | there
    · obtain ⟨rfl, rfl⟩ := Prod.mk.inj same
      exact ⟨_, List.mem_cons_self .., within⟩
    · exact (ih there).imp fun _ => And.imp_left (List.mem_cons_of_mem _)
  | null _ ih =>
    rcases List.mem_cons.mp there with same | there
    · exact absurd (Prod.mk.inj same).2 filled
    · exact ih there
  | unknown meaningless _ ih =>
    rcases List.mem_cons.mp there with same | there
    · obtain ⟨rfl, rfl⟩ := Prod.mk.inj same
      exact absurd under (meaningless name known)
    · exact ih there

theorem namesApart (h : TrimsFields names inner fields less)
    (apart : NamesApart names (.obj fields)) : NamesApart names (.obj less) :=
  fun name known first second =>
    apart name known (h.keys_sublist.subset first) (h.keys_sublist.subset second)

theorem find?_cases (h : TrimsFields names inner fields less)
    (distinct : (fields.map Prod.fst).Nodup) (apart : NamesApart names (.obj fields))
    (nulls : ∀ {key value after}, inner key value after → (value = .null ↔ after = .null))
    (known : name ∈ names) :
    (name.find? fields = none ∧ name.find? less = none) ∨
      ∃ key value after, name.find? fields = some (key, value) ∧
        name.find? less = some (key, after) ∧ inner key value after := by
  have before (key : Text) (value : Value) : name.find? fields = some (key, value) ↔ _ :=
    FieldName.find?_eq_some_iff distinct (apart name known)
  have later (key : Text) (value : Value) : name.find? less = some (key, value) ↔ _ :=
    FieldName.find?_eq_some_iff (h.keys_sublist.nodup distinct) (h.namesApart apart name known)
  cases found : name.find? fields with
  | some entry =>
    obtain ⟨there, under, filled⟩ := (before _ _).mp found
    obtain ⟨after, left, within⟩ := h.exists_after known under there filled
    exact .inr ⟨_, _, after, rfl,
      (later _ _).mpr ⟨left, under, mt (nulls within).mpr filled⟩, within⟩
  | none =>
    refine .inl ⟨rfl, Option.eq_none_iff_forall_ne_some.mpr fun entry left => ?_⟩
    obtain ⟨there, under, filled⟩ := (later _ _).mp left
    obtain ⟨value, there, within⟩ := h.exists_before there
    have still := (before _ _).mpr ⟨there, under, mt (nulls within).mp filled⟩
    exact absurd (still.symm.trans found) nofun

theorem find?_eq (h : TrimsFields names (fun _ => Eq) fields less)
    (distinct : (fields.map Prod.fst).Nodup) (apart : NamesApart names (.obj fields)) :
    ∀ name ∈ names, name.find? less = name.find? fields := by
  intro name known
  have same := h.find?_cases distinct apart (fun same => by rw [same]) known
  rcases same with ⟨before, after⟩ | ⟨key, value, _, before, after, rfl⟩
  · rw [before, after]
  · rw [before, after]

end TrimsFields

end Finding

section Reading

variable {names : List FieldName} {fields less : List (Text × Value)}

theorem readField_congr {α : Type} (same : ∀ name ∈ names, name.find? less = name.find? fields)
    (place : List Step) (convert : Value → Except Mismatch α) (default : α) :
    ∀ name ∈ names, readField place less convert default name =
      readField place fields convert default name :=
  fun name known => by rw [readField, readField, same name known]

/-- What is read from an object depends on nothing but what is found of some fields. -/
def AsksOnly {α : Type} (names : List FieldName) (read : List Step → Value → Check (Option α)) :
    Prop :=
  ∀ fields less, (∀ name ∈ names, name.find? less = name.find? fields) →
    ∀ place, read place (.obj less) = read place (.obj fields)

theorem Definition.asksOnly_read : AsksOnly fieldNames read := by
  intro fields less same place
  have texts := readField_congr same place stringOf []
  have numbers := readField_congr same place integerOf 0
  simp only [fieldNames, List.forall_mem_cons] at texts numbers
  simp only [read, texts, numbers]

theorem Reference.asksOnly_read : AsksOnly fieldNames read := by
  intro fields less same place
  have texts := readField_congr same place stringOf []
  have numbers := readField_congr same place integerOf 0
  simp only [fieldNames, List.forall_mem_cons] at texts numbers
  simp only [read, texts, numbers]

variable {α : Type} {read : List Step → Value → Check (Option α)}

theorem TrimsObject.read_eq {item rest : Value} (h : TrimsObject names (fun _ => Eq) item rest)
    (once : item.KeysOnce) (apart : NamesApart names item) (asks : AsksOnly names read)
    (place : List Step) : read place rest = read place item := by
  cases h with
  | obj trims => exact asks _ _ (trims.find?_eq once.nodup_keys apart) place
  | refl => rfl

theorem readItems_eq {items rest : List Value}
    (same : List.Forall₂ (fun item left => ∀ place, read place left = read place item) items rest)
    (place : List Step) (index : Nat) :
    readItems read place index rest = readItems read place index items := by
  induction same generalizing index with
  | nil => rfl
  | cons first _ ih => rw [readItems, readItems, first, ih]

end Reading

namespace Artifact

theorem TrimsValue.null_iff {key : Text} {value after : Value} (h : TrimsValue key value after) :
    value = .null ↔ after = .null := by
  cases h with
  | refl => exact .rfl
  | items => exact iff_of_false nofun nofun

theorem eq_of_mem_keys {list other : FieldName × List FieldName} (first : list ∈ lists)
    (second : other ∈ lists) {key : Text} (h : key ∈ list.1.keys) (h' : key ∈ other.1.keys) :
    list = other := by
  simp only [lists, List.mem_cons, List.not_mem_nil, or_false] at first second
  have apart : ∀ key ∈ FieldName.defs.keys, key ∉ FieldName.refs.keys := by decide
  rcases first with rfl | rfl <;> rcases second with rfl | rfl
  · rfl
  · exact absurd h' (apart key h)
  · exact absurd h (apart key h')
  · rfl

variable {fields less : List (Text × Value)} {list : FieldName × List FieldName} {key : Text}
  {items : List Value}

theorem Unambiguous.namesApart (h : Unambiguous (.obj fields)) (known : list ∈ lists)
    (once : (Value.obj fields).KeysOnce) (under : key ∈ list.1.keys)
    (there : (key, .arr items) ∈ fields) : ∀ item ∈ items, NamesApart list.2 item := by
  have found : (Value.obj fields).field? key = some (.arr items) :=
    (lookup_eq_some_iff_mem once.nodup_keys).mpr there
  have each := h.2 list known key under
  rwa [listed, found] at each

theorem readList_eq {α : Type} {read : List Step → Value → Check (Option α)}
    (trims : TrimsFields fieldNames TrimsValue fields less) (once : (Value.obj fields).KeysOnce)
    (clear : Unambiguous (.obj fields)) (known : list ∈ lists) (asks : AsksOnly list.2 read) :
    readList [] less read list.1 = readList [] fields read list.1 := by
  have asked : list.1 ∈ fieldNames := List.mem_map_of_mem known
  rcases trims.find?_cases once.nodup_keys clear.1 TrimsValue.null_iff asked with
    ⟨before, after⟩ | ⟨key, value, rest, before, after, within⟩
  · rw [readList, readList, before, after]
  · obtain ⟨there, under, -⟩ :=
      (FieldName.find?_eq_some_iff once.nodup_keys (clear.1 _ asked)).mp before
    rw [readList, readList, before, after]
    cases within with
    | refl => rfl
    | items other shared each =>
      obtain rfl := eq_of_mem_keys known other under shared
      have onceEach := (once.of_mem_fields _ there).of_mem_items
      have apartEach := clear.namesApart known once under there
      have trimmed := (List.forall₂_and_left ..).mpr ⟨onceEach, (List.forall₂_and_left ..).mpr
        ⟨apartEach, each⟩⟩
      exact readItems_eq (trimmed.imp fun item left ⟨once, apart, trims⟩ =>
        trims.read_eq once apart asks) _ 0

theorem read_eq {document rest : Value} (once : document.KeysOnce) (clear : Unambiguous document)
    (trims : TrimsTo document rest) : read rest = read document := by
  cases trims with
  | refl => rfl
  | obj trims =>
    have defs := readList_eq trims once clear (List.mem_cons_self ..)
      Definition.asksOnly_read
    have refs := readList_eq trims once clear (List.mem_cons_of_mem _ (List.mem_cons_self ..))
      Reference.asksOnly_read
    rw [read, read, defs, refs]

/-- Null stands for what is absent, and fields that go by unknown names mean nothing: whatever of
both is left out of a document, of its top or of what it lists, it holds the same artifact, or has
the same problems at the same places. Every document that can be read has its keys once. -/
theorem decode_trimmed :
    (∀ document less : Value, document.KeysOnce → Unambiguous document → TrimsTo document less →
      decode less = decode document) ∧
    ∀ (depth : Nat) (bytes : Bytes) (document : Value),
      Json.readBytes depth bytes = .ok document →
      document.KeysOnce := by
  refine ⟨fun document less once clear trims => ?_,
    fun depth bytes document => Json.keysOnce_readBytes⟩
  rw [decode, decode, read_eq once clear trims]

section Crowded

def crowded : Value := .obj [("Version", .int 3),
  ("defs", .arr [.obj [("Path", .str "p"), ("file", .null), ("DefPath", .int 1)], .null]),
  ("Refs", .null)]

def thinned : Value := .obj [("defs", .arr [.obj [("Path", .str "p")], .null])]

theorem decode_trimmed_crowded :
    crowded.KeysOnce ∧ Unambiguous crowded ∧ TrimsTo crowded thinned ∧
      decode crowded = .error [⟨[.field "defs", .item 1], .notObject⟩] ∧
      decode thinned = decode crowded := by
  have entry : Value.KeysOnce
      (.obj [("Path", .str "p"), ("file", .null), ("DefPath", .int 1)]) :=
    .obj (by decide) (by simpa using ⟨.leaf rfl, .leaf rfl, .leaf rfl⟩)
  have items : Value.KeysOnce
      (.arr [.obj [("Path", .str "p"), ("file", .null), ("DefPath", .int 1)], .null]) :=
    .arr (by simpa using ⟨entry, .leaf rfl⟩)
  have once : crowded.KeysOnce :=
    .obj (by decide) (by simpa using ⟨.leaf rfl, items, .leaf rfl⟩)
  have clear : Unambiguous crowded := by decide
  have first : TrimsObject Definition.fieldNames (fun _ => Eq)
      (.obj [("Path", .str "p"), ("file", .null), ("DefPath", .int 1)])
      (.obj [("Path", .str "p")]) :=
    .obj (.keep rfl (.null (.unknown (by decide) .nil)))
  have trims : TrimsTo crowded thinned :=
    .obj (.unknown (by decide) (.keep (.items (List.mem_cons_self ..) (by decide)
      (.cons first (.cons (.refl _) .nil))) (.null .nil)))
  exact ⟨once, clear, trims, by decide, decode_trimmed.1 _ _ once clear trims⟩

end Crowded
end Artifact
end IndexCoverage
