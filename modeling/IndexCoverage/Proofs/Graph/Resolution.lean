import IndexCoverage.Json.Writer
import IndexCoverage.Proofs.Disk.Walk
import IndexCoverage.Proofs.Graph.Loading

/-! Resolving references across units. A loaded reference is valid if and only if the
reference as it was decoded names a repository, or points at what some artifact of
the same loading defines; empty unit types and names are those of the units that the
definition and the reference come from. -/

namespace IndexCoverage

def Text.orElse (s other : Text) : Text := if s = [] then other else s

def Definition.place (unit : SourceUnit) (d : Definition) : Text × Text × Text :=
  (Text.orElse d.unitType unit.type, Text.orElse d.unit unit.name, d.path)

def Reference.place (unit : SourceUnit) (r : Reference) : Text × Text × Text :=
  (Text.orElse r.defUnitType unit.type, Text.orElse r.defUnit unit.name, r.defPath)

/-- A reference of a unit's artifact names a repository, or points at what one of the
artifacts defines. -/
def Reference.Resolves (units : List (SourceUnit × Artifact)) (unit : SourceUnit)
    (r : Reference) : Prop :=
  r.defRepo ≠ [] ∨ ∃ other artifact, (other, artifact) ∈ units ∧
    ∃ d ∈ artifact.defs, d.place other = r.place unit

def Reference.load (unit : SourceUnit) (r : Reference) : Reference :=
  r.pointTo (r.key.normalize unit)

theorem DefKey.normalize_eq (unit : SourceUnit) (key : DefKey) :
    key.normalize unit =
      ⟨[], Text.orElse key.unitType unit.type, Text.orElse key.unit unit.name, key.path⟩ := by
  simp [normalize, Text.orElse]

theorem normalize_key_eq_iff (d : Definition) (r : Reference) (other unit : SourceUnit) :
    d.key.normalize other = r.key.normalize unit ↔ d.place other = r.place unit := by
  simp [DefKey.normalize_eq, Definition.place, Reference.place, Definition.key, Reference.key]

/-- After loading a reference points at the normalized key, so that leaving out its
repository once more changes nothing. -/
theorem Reference.key_load (unit : SourceUnit) (r : Reference) :
    { (r.load unit).key with repo := [] } = r.key.normalize unit := rfl

theorem Reference.isValid_load_iff (known : List DefKey) (unit : SourceUnit) (r : Reference) :
    (r.load unit).isValid known = true ↔ r.defRepo ≠ [] ∨ r.key.normalize unit ∈ known := by
  have repo : (r.load unit).defRepo = r.defRepo := rfl
  rw [isValid, key_load, repo]
  simp

theorem refs_normalize (unit : SourceUnit) (artifact : Artifact) :
    (artifact.normalize unit).refs = artifact.refs.map (Reference.load unit) := rfl

namespace GraphData

theorem isValid_load_addAll_iff (units : List (SourceUnit × Artifact)) (unit : SourceUnit)
    (r : Reference) :
    (r.load unit).isValid (addAll ⟨[], []⟩ units).keys = true ↔ r.Resolves units unit := by
  rw [r.isValid_load_iff, mem_keys_addAll, Reference.Resolves]
  simp only [List.not_mem_nil, false_or, normalize_key_eq_iff]

/-- Resolution is sound and complete: the reference that comes from the `j`th one of
the `i`th artifact is valid among the keys of the loading exactly if that one resolves. -/
theorem isValid_iff_resolves {disk : Disk} {store : Store} {rules : List Rule} {log : Log}
    {data : GraphData} (h : Logged.outcome (load disk store rules) log = .ok data)
    {i j : Nat} {unit : SourceUnit} {artifact : Artifact} {r : Reference}
    (fromUnit : (loaded disk store rules)[i]? = some (unit, artifact))
    (fromArtifact : artifact.refs[j]? = some r) :
    ∃ kept, (data.artifacts[i]?.bind (·.refs[j]?)) = some kept ∧
      (kept.isValid data.keys = true ↔ r.Resolves (loaded disk store rules) unit) := by
  have all := outcome_load_eq_ok h
  have artifacts : data.artifacts =
      (loaded disk store rules).map fun found => found.2.normalize found.1 := by
    rw [all, artifacts_addAll, List.nil_append]
  refine ⟨r.load unit, ?_, ?_⟩
  · simp [artifacts, fromUnit, refs_normalize, fromArtifact]
  · rw [all]
    exact isValid_load_addAll_iff _ unit r

section Across

def referring : SourceUnit × Artifact :=
  (⟨"a", "t", [], []⟩, ⟨[], [⟨[], [], "b", "p", [], [], [], [], 0, 0⟩]⟩)

def defining : SourceUnit × Artifact :=
  (⟨"b", "t", [], []⟩, ⟨[⟨[], [], [], "p", [], [], [], 0, 0⟩], []⟩)

def referringBytes : Bytes :=
  Text.toUtf8 (Json.write Json.compact 0
    (.obj [("Refs", .arr [.obj [("DefUnit", .str "b"), ("DefPath", .str "p")]])]))

def definingBytes : Bytes :=
  Text.toUtf8 (Json.write Json.compact 0 (.obj [("Defs", .arr [.obj [("Path", .str "p")]])]))

def acrossDisk : Disk where
  top := .dir [("a", .dir [("t.graph.json", .file referringBytes)]),
    ("b", .dir [("t.graph.json", .file definingBytes)])]
  workDir := []
  home := "/"

def acrossStore : Store := ⟨⟨.root, []⟩, 970⟩

def acrossRules : List Rule :=
  [.graph "a/t.graph.json" referring.1, .graph "b/t.graph.json" defining.1]

theorem find_referring :
    findArtifact acrossDisk acrossStore "a/t.graph.json" = .ok (.artifact referring.2) := by
  have located : acrossStore.locate "a/t.graph.json" = .ok ⟨.root, ["a", "t.graph.json"]⟩ := rfl
  have read : acrossStore.read acrossDisk "a/t.graph.json" = .ok referringBytes :=
    Store.read_of_walk located rfl rfl rfl (by decide) rfl rfl
  exact findArtifact_of_bytes read (by decide +kernel)

theorem find_defining :
    findArtifact acrossDisk acrossStore "b/t.graph.json" = .ok (.artifact defining.2) := by
  have located : acrossStore.locate "b/t.graph.json" = .ok ⟨.root, ["b", "t.graph.json"]⟩ := rfl
  have read : acrossStore.read acrossDisk "b/t.graph.json" = .ok definingBytes :=
    Store.read_of_walk located rfl rfl rfl (by decide) rfl rfl
  exact findArtifact_of_bytes read (by decide +kernel)

theorem loaded_across : loaded acrossDisk acrossStore acrossRules = [referring, defining] := by
  simp [loaded, acrossRules, Rule.artifacts, loaded?, find_referring, find_defining]

theorem outcome_load_across :
    Logged.outcome (load acrossDisk acrossStore acrossRules) [] =
      .ok (addAll ⟨[], []⟩ [referring, defining]) := by
  have readable : (acrossRules.flatMap Rule.artifacts).findSome?
      (loadFailure? acrossDisk acrossStore) = none := by
    simp [acrossRules, Rule.artifacts, loadFailure?, loadCause?, find_referring, find_defining]
  rw [outcome_load, readable, loaded_across]

theorem isValid_across :
    Logged.outcome (load acrossDisk acrossStore acrossRules) [] =
        .ok (addAll ⟨[], []⟩ [referring, defining]) ∧
      ∃ kept, ((addAll ⟨[], []⟩ [referring, defining]).artifacts[0]?.bind (·.refs[0]?)) =
          some kept ∧
        (kept.isValid (addAll ⟨[], []⟩ [referring, defining]).keys = true ↔
          Reference.Resolves (loaded acrossDisk acrossStore acrossRules) referring.1
            ⟨[], [], "b", "p", [], [], [], [], 0, 0⟩) := by
  have first : (loaded acrossDisk acrossStore acrossRules)[0]? =
      some (referring.1, referring.2) := by
    rw [loaded_across]
    rfl
  exact ⟨outcome_load_across, isValid_iff_resolves outcome_load_across first rfl⟩

end Across

end GraphData
end IndexCoverage
