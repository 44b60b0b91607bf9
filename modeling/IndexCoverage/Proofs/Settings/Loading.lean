import IndexCoverage.Proofs.Disk.Plain
import IndexCoverage.Proofs.Log.Outcome
import IndexCoverage.Settings

/-! What loading settings comes to, step by step, and where the settings are from. Those of a
directory that lies at its place are the ones in its settings file. -/

namespace IndexCoverage
namespace Settings

def ofContent (depth : Nat) (root : Path) (name : Text) (content : Bytes) :
    Except Failure Settings :=
  match Text.ofUtf8? false content with
  | none => .error (.fault .encoding)
  | some text => ofText depth root name text

def ofReading (depth : Nat) (root : Path) (name : Text) :
    Except PathError Bytes → Except Failure Settings
  | .error (.system e) => .error (.settings (.unreadable name e))
  | .error e => .error (.path e)
  | .ok content => ofContent depth root name content

/-- The settings for a path when files are read in any way, as where some may not be opened. -/
def loadReading (reads : Path → Except PathError Bytes) (disk : Disk) (depth : Nat)
    (asked : Path) : Except Failure Settings :=
  ((locate disk asked).mapError .path).bind fun file =>
    ((disk.resolve file.parent).mapError .path).bind fun root =>
      ((disk.exists? file).mapError .path).bind fun there =>
        if there then ofReading depth root file.name (reads file) else .ok { root }

theorem load_eq_loadReading (disk : Disk) (depth : Nat) (asked : Path) :
    load disk depth asked = loadReading disk.read disk depth asked := by
  unfold load loadReading
  refine congrArg (Except.bind _) (funext fun file => congrArg (Except.bind _) (funext fun root =>
    congrArg (Except.bind _) (funext fun there => ?_)))
  cases there with
  | false => rfl
  | true =>
    unfold ofReading ofContent
    cases disk.read file with
    | ok content => rfl
    | error e => cases e <;> rfl

theorem root_of_ofFields {dir : Path} {graph : Yaml.Graph} {fields : List (Yaml.Atom × Nat)}
    {settings : Settings} (made : ofFields dir graph fields = .ok settings) :
    settings.root = dir := by
  unfold ofFields at made
  obtain ⟨dataDir, -, made⟩ := do_eq_ok_iff.mp made
  obtain ⟨types, -, made⟩ := do_eq_ok_iff.mp made
  rw [← pure_eq_ok_iff.mp made]

theorem root_of_ofText {depth : Nat} {dir : Path} {name text : Text} {settings : Settings}
    (made : ofText depth dir name text = .ok settings) : settings.root = dir := by
  unfold ofText at made
  split at made
  · rw [← Except.ok.inj made]
  · split at made
    · cases made
    · cases made
    · rw [← Except.ok.inj made]
    · split at made
      · rw [← Except.ok.inj made]
      · exact root_of_ofFields (mapError_eq_ok_iff.mp made)
      · cases made

theorem root_of_ofReading {depth : Nat} {dir : Path} {name : Text}
    {reading : Except PathError Bytes} {settings : Settings}
    (made : ofReading depth dir name reading = .ok settings) : settings.root = dir := by
  unfold ofReading ofContent at made
  split at made
  · cases made
  · cases made
  · split at made
    · cases made
    · exact root_of_ofText made

theorem root_of_load {disk : Disk} {depth : Nat} {asked : Path} {settings : Settings}
    (loaded : load disk depth asked = .ok settings) :
    ∃ file, locate disk asked = .ok file ∧ disk.resolve file.parent = .ok settings.root := by
  rw [load_eq_loadReading] at loaded
  obtain ⟨file, located, loaded⟩ := bind_eq_ok_iff.mp loaded
  obtain ⟨dir, resolved, loaded⟩ := bind_eq_ok_iff.mp loaded
  obtain ⟨there, -, loaded⟩ := bind_eq_ok_iff.mp loaded
  refine ⟨file, mapError_eq_ok_iff.mp located, ?_⟩
  rw [mapError_eq_ok_iff.mp resolved, Except.ok.injEq]
  cases there with
  | false => rw [← Except.ok.inj loaded]
  | true => exact (root_of_ofReading loaded).symm

variable {disk : Disk} {names : List Text} {entries : List (Text × Node)} {content : Bytes}

theorem locate_of_liesAt (dir : disk.LiesAt names (.dir entries))
    (file : disk.LiesAt (names ++ [settingsFileName]) (.file content)) :
    locate disk (Path.ofPlace names) = .ok (Path.ofPlace (names ++ [settingsFileName])) := by
  have isDir : disk.isDir (Path.ofPlace names) = .ok true := dir.holds _
  have resolved : disk.resolve ((Path.ofPlace names).child settingsFileName) = _ := file.resolve
  unfold locate
  change (disk.isDir (Path.ofPlace names)).bind _ = _
  rw [isDir]
  exact resolved

theorem load_of_content (depth : Nat) (dir : disk.LiesAt names (.dir entries))
    (file : disk.LiesAt (names ++ [settingsFileName]) (.file content))
    (may : (disk.rights (names ++ [settingsFileName])).read = true) :
    load disk depth (Path.ofPlace names) =
      ofContent depth (Path.ofPlace names) settingsFileName content := by
  have parent : (Path.ofPlace (names ++ [settingsFileName])).parent = Path.ofPlace names := by
    change (⟨.root, (names ++ [settingsFileName]).dropLast⟩ : Path) = _
    rw [List.dropLast_concat]
    rfl
  have name : (Path.ofPlace (names ++ [settingsFileName])).name = settingsFileName := by
    change (names ++ [settingsFileName]).getLast?.getD [] = _
    rw [List.getLast?_concat, Option.getD_some]
  have there : disk.exists? (Path.ofPlace (names ++ [settingsFileName])) = .ok true := file.holds _
  have read : disk.read (Path.ofPlace (names ++ [settingsFileName])) = .ok content :=
    Disk.read_of_walk file.accepted rfl file.enter file.plain file.walk may
  rw [load_eq_loadReading, loadReading, locate_of_liesAt dir file]
  simp only [mapError_ok, Except.bind, parent, dir.resolve, there, if_true, name, read]
  rfl

theorem load_of_liesAt {text : Text} (depth : Nat) (dir : disk.LiesAt names (.dir entries))
    (file : disk.LiesAt (names ++ [settingsFileName]) (.file content))
    (may : (disk.rights (names ++ [settingsFileName])).read = true)
    (decoded : Text.ofUtf8? false content = some text) :
    load disk depth (Path.ofPlace names) =
      ofText depth (Path.ofPlace names) settingsFileName text := by
  rw [load_of_content depth dir file may, ofContent, decoded]

end Settings
end IndexCoverage
