import IndexCoverage.Proofs.Settings.Loading

/-! When the settings of a repository are loaded, or it is reported that they cannot be. A file
that cannot be opened, a document that is no YAML and one that is no mapping are reported. What a
value of the wrong kind comes to is its usual setting, but an integer that has too many digits to
be written as text is an error, and so are bytes that are no text. -/

namespace IndexCoverage
namespace Settings

/-- There are settings, and with them a directory for the build data, or it is reported that there
are none. -/
def Reported (result : Except Failure Settings) : Prop :=
  (∃ settings, result = .ok settings ∧ settings.buildDataDir ≠ []) ∨
    ∃ e, result = .error (.settings e)

def IsUnwritable (value : Option Yaml.Value) : Prop :=
  ∃ n, value = some (.atom (.int n)) ∧ Nat.pow 10 maxDigits ≤ n.natAbs

def HoldsUnwritable (graph : Yaml.Graph) (value : Option Yaml.Value) : Prop :=
  ∃ items, value = some (.list items) ∧ ∃ item ∈ items, IsUnwritable (graph.value? item)

/-- One of the settings that are texts would have an unwritable integer for its text. -/
def HasUnwritable (graph : Yaml.Graph) (fields : List (Yaml.Atom × Nat)) : Prop :=
  IsUnwritable (field? fields graph "build_data_dir") ∨
    HoldsUnwritable graph (field? fields graph "multi_unit_types")

/-- The text has a fault of another kind than those of a YAML document, or an unwritable integer
for the text of a setting. -/
def Spoils (depth : Nat) (text : Text) : Prop :=
  text.isBlank = false ∧
    ((∃ fault, Yaml.read depth (joinReturns text) = .error fault ∧ fault ≠ .yaml) ∨
      ∃ graph fields, Yaml.read depth (joinReturns text) = .ok (some graph) ∧
        graph.value? graph.root = some (.map fields) ∧ HasUnwritable graph fields)

def Escapes (depth : Nat) (content : Bytes) : Prop :=
  Text.ofUtf8? false content = none ∨
    ∃ text, Text.ofUtf8? false content = some text ∧ Spoils depth text

/-- The result is a value, or the fault of a numeral; the fault exactly under a condition. -/
def FailsIf {α : Type} (unwritable : Prop) (result : Except Fault α) : Prop :=
  (∃ value, result = .ok value) ∧ ¬unwritable ∨ result = .error .numeral ∧ unwritable

section Failing

variable {α β : Type} {p q : Prop} {result : Except Fault α}

theorem failsIf_ok {value : α} (writable : ¬p) : FailsIf p (.ok value : Except Fault α) :=
  .inl ⟨⟨value, rfl⟩, writable⟩

theorem FailsIf.map (fails : FailsIf p result) (make : α → β) : FailsIf p (result.map make) := by
  rcases fails with ⟨⟨value, rfl⟩, writable⟩ | ⟨rfl, unwritable⟩
  · exact failsIf_ok writable
  · exact .inr ⟨rfl, unwritable⟩

theorem FailsIf.bind {next : α → Except Fault β} (first : FailsIf p result)
    (second : ∀ value, FailsIf q (next value)) : FailsIf (p ∨ q) (result >>= next) := by
  rcases first with ⟨⟨value, rfl⟩, writable⟩ | ⟨rfl, unwritable⟩
  · rw [or_iff_right writable]
    exact second value
  · exact .inr ⟨rfl, .inl unwritable⟩

theorem failsIf_mapM {f : α → Except Fault β} {p : α → Prop}
    (each : ∀ item, FailsIf (p item) (f item)) (items : List α) :
    FailsIf (∃ item ∈ items, p item) (items.mapM f) := by
  induction items with
  | nil => exact failsIf_ok (by simp)
  | cons item rest ih =>
    rw [List.mapM_cons]
    simp only [List.mem_cons, exists_eq_or_imp]
    exact (each item).bind fun text => ih.map (text :: ·)

end Failing

theorem failsIf_numeral (n : Int) : FailsIf (Nat.pow 10 maxDigits ≤ n.natAbs) (numeral n) := by
  by_cases long : Nat.pow 10 maxDigits ≤ n.natAbs
  · have failed : numeral n = .error .numeral := if_pos long
    exact .inr ⟨failed, long⟩
  · have written : numeral n = .ok (Text.ofInt n) := if_neg long
    exact .inl ⟨⟨_, written⟩, long⟩

theorem isUnwritable_int_iff {n : Int} :
    IsUnwritable (some (.atom (.int n))) ↔ Nat.pow 10 maxDigits ≤ n.natAbs := by
  simp only [IsUnwritable, Option.some.injEq, Yaml.Value.atom.injEq, Yaml.Atom.int.injEq,
    exists_eq_left']

theorem failsIf_textOf (atom : Yaml.Atom) :
    FailsIf (IsUnwritable (some (.atom atom))) (textOf atom) := by
  cases atom with
  | int n =>
    rw [isUnwritable_int_iff]
    exact (failsIf_numeral n).map some
  | _ => exact failsIf_ok fun ⟨n, same, _⟩ => by cases same

theorem failsIf_directoryOf (value : Option Yaml.Value) :
    FailsIf (IsUnwritable value) (directoryOf value) := by
  unfold directoryOf
  split
  · exact (failsIf_textOf _).map _
  · next other => exact failsIf_ok fun ⟨n, same, _⟩ => other _ same

theorem ne_nil_of_directoryOf {value : Option Yaml.Value} {dir : Text}
    (named : directoryOf value = .ok (some dir)) : dir ≠ [] := by
  unfold directoryOf at named
  split at named
  · obtain ⟨text?, -, kept⟩ := map_eq_ok_iff.mp named
    simpa using (Option.filter_eq_some_iff.mp kept).2
  · cases named

theorem failsIf_itemText (value : Option Yaml.Value) :
    FailsIf (IsUnwritable value) (itemText value) := by
  unfold itemText
  split
  · exact failsIf_ok fun ⟨n, same, _⟩ => by cases same
  · exact failsIf_textOf _
  · next other => exact failsIf_ok fun ⟨n, same, _⟩ => other _ same

theorem failsIf_textsOf (graph : Yaml.Graph) (value : Option Yaml.Value) :
    FailsIf (HoldsUnwritable graph value) (textsOf graph value) := by
  unfold textsOf
  split
  · exact failsIf_ok fun ⟨items, same, _⟩ => by cases same
  · exact failsIf_ok fun ⟨items, same, _⟩ => by cases same
  · next items =>
    have holds_iff : HoldsUnwritable graph (some (.list items)) ↔
        ∃ item ∈ items, IsUnwritable (graph.value? item) := by
      simp only [HoldsUnwritable, Option.some.injEq, Yaml.Value.list.injEq, exists_eq_left']
    rw [holds_iff]
    exact (failsIf_mapM (fun item => failsIf_itemText (graph.value? item)) items).map _
  · next other => exact failsIf_ok fun ⟨items, same, _⟩ => other _ same

theorem failsIf_ofFields (root : Path) (graph : Yaml.Graph) (fields : List (Yaml.Atom × Nat)) :
    FailsIf (HasUnwritable graph fields) (ofFields root graph fields) :=
  (failsIf_directoryOf _).bind fun _ => (failsIf_textsOf graph _).map _

theorem buildDataDir_ne_nil {root : Path} {graph : Yaml.Graph} {fields : List (Yaml.Atom × Nat)}
    {settings : Settings} (made : ofFields root graph fields = .ok settings) :
    settings.buildDataDir ≠ [] := by
  unfold ofFields at made
  obtain ⟨dir?, named, made⟩ := do_eq_ok_iff.mp made
  obtain ⟨texts, -, made⟩ := do_eq_ok_iff.mp made
  rw [← pure_eq_ok_iff.mp made]
  cases dir? with
  | none => exact List.cons_ne_nil _ _
  | some dir => exact ne_nil_of_directoryOf named

theorem reported_usual (root : Path) : Reported (.ok { root }) :=
  .inl ⟨_, rfl, List.cons_ne_nil _ _⟩

theorem reported_mapError_ofFields_iff (root : Path) (graph : Yaml.Graph)
    (fields : List (Yaml.Atom × Nat)) :
    Reported ((ofFields root graph fields).mapError .fault) ↔ ¬HasUnwritable graph fields := by
  rcases failsIf_ofFields root graph fields with ⟨⟨settings, made⟩, writable⟩ | ⟨failed, has⟩
  · rw [made]
    exact iff_of_true (.inl ⟨settings, rfl, buildDataDir_ne_nil made⟩) writable
  · rw [failed]
    exact iff_of_false (by simp [Reported, mapError_error]) (not_not_intro has)

theorem reported_ofText_iff (depth : Nat) (root : Path) (name text : Text) :
    Reported (ofText depth root name text) ↔ ¬Spoils depth text := by
  unfold ofText Spoils
  cases blank : text.isBlank with
  | true => exact iff_of_true (reported_usual root) (by simp)
  | false =>
    rw [if_neg Bool.false_ne_true]
    cases Yaml.read depth (joinReturns text) with
    | error fault =>
      by_cases own : fault = .yaml
      · subst own
        exact iff_of_true (.inr ⟨_, rfl⟩) (by simp)
      · exact iff_of_false (by simp [Reported]) (by simp [own])
    | ok parsed =>
      cases parsed with
      | none => exact iff_of_true (reported_usual root) (by simp)
      | some graph =>
        simp only [reduceCtorEq, false_and, exists_false, false_or, Except.ok.injEq,
          Option.some.injEq, true_and, exists_and_left, exists_eq_left']
        split
        · next null =>
          rw [null]
          exact iff_of_true (reported_usual root) (by simp)
        · next fields mapping =>
          rw [mapping, reported_mapError_ofFields_iff]
          simp
        · next other =>
          exact iff_of_true (.inr ⟨_, rfl⟩) fun ⟨fields, mapping, _⟩ => other fields mapping

theorem reported_ofContent_iff (depth : Nat) (root : Path) (name : Text) (content : Bytes) :
    Reported (ofContent depth root name content) ↔ ¬Escapes depth content := by
  unfold ofContent Escapes
  cases Text.ofUtf8? false content with
  | none => exact iff_of_false (by simp [Reported]) (by simp)
  | some text => simp [reported_ofText_iff]

def IsFit (depth : Nat) (reading : Except PathError Bytes) : Prop :=
  (∃ e, reading = .error (.system e)) ∨ ∃ content, reading = .ok content ∧ ¬Escapes depth content

theorem reported_ofReading_iff (depth : Nat) (root : Path) (name : Text)
    (reading : Except PathError Bytes) :
    Reported (ofReading depth root name reading) ↔ IsFit depth reading := by
  cases reading with
  | ok content =>
    rw [ofReading, reported_ofContent_iff]
    simp [IsFit]
  | error e =>
    cases e with
    | system cause => exact iff_of_true (.inr ⟨_, rfl⟩) (.inl ⟨cause, rfl⟩)
    | _ => exact iff_of_false (by simp [Reported, ofReading]) (by simp [IsFit])

/-- Settings are loaded or reported exactly if the path has a place for the settings file and there
is no file there, or what reading it gives is fit; this holds however files are read. -/
theorem load_reported_iff (disk : Disk) (depth : Nat) (asked : Path) :
    load disk depth asked = loadReading disk.read disk depth asked ∧
      ∀ reads, Reported (loadReading reads disk depth asked) ↔
        ∃ file root, locate disk asked = .ok file ∧ disk.resolve file.parent = .ok root ∧
          (disk.exists? file = .ok false ∨
            disk.exists? file = .ok true ∧ IsFit depth (reads file)) := by
  refine ⟨load_eq_loadReading disk depth asked, fun reads => ?_⟩
  unfold loadReading
  cases locate disk asked with
  | error e => exact iff_of_false (by simp [Reported, mapError_error, Except.bind]) (by simp)
  | ok file =>
    simp only [mapError_ok, Except.bind, Except.ok.injEq, exists_and_left, exists_eq_left']
    cases disk.resolve file.parent with
    | error e => exact iff_of_false (by simp [Reported, mapError_error]) (by simp)
    | ok root =>
      simp only [mapError_ok, Except.ok.injEq, exists_eq_left']
      cases disk.exists? file with
      | error e => exact iff_of_false (by simp [Reported, mapError_error]) (by simp)
      | ok there =>
        cases there with
        | false => exact iff_of_true (reported_usual root) (.inl rfl)
        | true =>
          rw [mapError_ok]
          simp only [if_true, reported_ofReading_iff, Except.ok.injEq, Bool.true_eq_false, false_or,
            true_and]

section Garbled

def garbledDisk : Disk where
  top := .dir [("a", .dir [(settingsFileName, .file [0xFF])])]
  workDir := []
  home := "/"

/-- That bytes are no text is not reported as a fault of the settings. -/
theorem load_unreported :
    garbledDisk.isDir (Path.ofPlace ["a"]) = .ok true ∧
      load garbledDisk 480 (Path.ofPlace ["a"]) = .error (.fault .encoding) ∧
      ¬Reported (load garbledDisk 480 (Path.ofPlace ["a"])) := by
  have dir : garbledDisk.LiesAt ["a"] (.dir _) := ⟨rfl, rfl, by decide, rfl, rfl⟩
  have file : garbledDisk.LiesAt ["a", settingsFileName] (.file [0xFF]) :=
    ⟨rfl, rfl, by decide, rfl, rfl⟩
  have failed : load garbledDisk 480 (Path.ofPlace ["a"]) = .error (.fault .encoding) :=
    load_of_content 480 dir file rfl
  refine ⟨dir.holds _, failed, ?_⟩
  simp [failed, Reported]

end Garbled

end Settings
end IndexCoverage
