import IndexCoverage.Proofs.Graph.Resolution
import IndexCoverage.Proofs.Plan.Places

/-! What loading passes over, and what it does not. A unit is passed over, with a warning,
if there is nothing at its target or nothing but white space. The first of the other targets
that is no artifact ends the loading, in its own name; if there is none, every artifact is
loaded, in order, and the known keys are those of its definitions. -/

namespace IndexCoverage

namespace Store

variable (disk : Disk) (store : Store) (name : Text)

def lacks : Bool :=
  match store.read disk name with
  | .error (.path (.system e)) => e.errno = .notFound
  | _ => false

def hasBlank : Bool :=
  match store.read disk name with
  | .ok bytes => isEmptyDocument bytes
  | .error _ => false

def skips : Bool := store.lacks disk name || store.hasBlank disk name

def artifact? : Option Artifact := do
  let bytes ← (store.read disk name).toOption
  let document ← (Json.readBytes store.depth bytes).toOption
  (Artifact.decode document).toOption

/-- The name is refused, or what is there cannot be read, or is no artifact. -/
def isUnusable : Bool := !store.skips disk name && (store.artifact? disk name).isNone

def NestsTooFar : Prop :=
  ∃ bytes bracket, store.read disk name = .ok bytes ∧
    Json.readBytes store.depth bytes = .error (.tooDeep bracket)

variable {disk store name}

theorem read_eq_error {e : StoreError} (h : store.read disk name = .error e) :
    e = .outside name ∨ ∃ cause, e = .path cause := by
  cases located : store.locate name with
  | error refusal =>
    rw [read, located] at h
    exact .inl ((Except.error.inj h).symm.trans (eq_outside_of_locate located))
  | ok path =>
    rw [read_of_locate located] at h
    cases found : disk.read path with
    | ok bytes => simp [found, mapError_ok] at h
    | error cause =>
      rw [found] at h
      exact .inr ⟨cause, (Except.error.inj h).symm⟩

theorem readJson_of_error {e : StoreError} (h : store.read disk name = .error e) :
    store.readJson disk name = .error e := by
  rw [readJson, h]
  rfl

theorem decode_of_full (depth : Nat) (name : Text) {bytes : Bytes}
    (full : isEmptyDocument bytes = false) :
    (∃ document, Json.readBytes depth bytes = .ok document ∧
        decode depth name bytes = .ok document) ∨
      ∃ e fault, Json.readBytes depth bytes = .error e ∧
        decode depth name bytes = .error (.fault fault) ∧
        ∀ bracket, fault = .tooDeep bracket → e = .tooDeep bracket := by
  unfold decode
  rw [if_neg (by simp [full])]
  cases Json.readBytes depth bytes with
  | ok document => exact .inl ⟨document, rfl, rfl⟩
  | error e => cases e <;> exact .inr ⟨_, _, rfl, rfl, by simp⟩

end Store

section Standing

variable {disk : Disk} {store : Store} {name : Text}

theorem findArtifact_of_lacks (h : store.lacks disk name = true) :
    findArtifact disk store name = .ok .missing := by
  unfold Store.lacks at h
  split at h
  · next e read =>
    obtain ⟨errno, path⟩ := e
    obtain rfl : errno = .notFound := of_decide_eq_true h
    rw [findArtifact, Store.readJson_of_error read]
  · simp at h

theorem findArtifact_of_hasBlank (h : store.hasBlank disk name = true) :
    findArtifact disk store name = .ok .empty := by
  unfold Store.hasBlank at h
  split at h
  · next bytes read => rw [findArtifact, Store.readJson_of_read read, Store.decode, if_pos h]
  · simp at h

theorem findArtifact_of_artifact? {artifact : Artifact} (full : store.skips disk name = false)
    (h : store.artifact? disk name = some artifact) :
    findArtifact disk store name = .ok (.artifact artifact) := by
  obtain ⟨bytes, read, h⟩ := Option.bind_eq_some_iff.mp h
  obtain ⟨document, parsed, decoded⟩ := Option.bind_eq_some_iff.mp h
  rw [toOption_eq_some_iff] at read parsed decoded
  have notBlank : Store.isEmptyDocument bytes = false := by
    simpa [Store.skips, Store.hasBlank, read] using (Bool.or_eq_false_iff.mp full).2
  rw [findArtifact, Store.readJson_of_read read]
  rcases Store.decode_of_full store.depth name notBlank with
    ⟨other, same, made⟩ | ⟨e, fault, broken, -, -⟩
  · obtain rfl := eq_of_eq_ok parsed same
    simp [made, decoded]
  · simp [broken] at parsed

/-- A target that is unusable has a cause, which is not that it nests too far unless it does. -/
theorem findArtifact_of_isUnusable (h : store.isUnusable disk name = true) :
    ∃ cause, findArtifact disk store name = .error cause ∧
      ((∃ bracket, cause = .fault (.tooDeep bracket)) → store.NestsTooFar disk name) := by
  obtain ⟨full, none⟩ := Bool.and_eq_true_iff.mp h
  rw [Bool.not_eq_true'] at full
  obtain ⟨notMissing, notBlank⟩ := Bool.or_eq_false_iff.mp full
  cases read : store.read disk name with
  | error e =>
    have unread := Store.readJson_of_error read
    rcases Store.read_eq_error read with rfl | ⟨cause, rfl⟩
    · exact ⟨_, by rw [findArtifact, unread], by simp⟩
    · refine ⟨.path cause, ?_, by simp⟩
      rw [findArtifact, unread]
      cases cause with
      | system e =>
        obtain ⟨errno, path⟩ := e
        cases errno with
        | notFound => simp [Store.lacks, read] at notMissing
        | _ => rfl
      | _ => rfl
  | ok bytes =>
    have notEmpty : Store.isEmptyDocument bytes = false := by
      simpa [Store.hasBlank, read] using notBlank
    rw [findArtifact, Store.readJson_of_read read]
    rcases Store.decode_of_full store.depth name notEmpty with
      ⟨document, parsed, made⟩ | ⟨e, fault, broken, made, deep⟩
    · cases decoded : Artifact.decode document with
      | ok artifact => simp [Store.artifact?, read, parsed, decoded, Except.toOption] at none
      | error problems => exact ⟨.fault (.artifact problems), by simp [made, decoded], by simp⟩
    · refine ⟨.fault fault, by simp [made], ?_⟩
      rintro ⟨bracket, same⟩
      exact ⟨bytes, bracket, read, deep bracket (StoreError.fault.inj same) ▸ broken⟩

end Standing

def Reference.ownedBy (unit : SourceUnit) (r : Reference) : Reference :=
  { r with
    defUnitType := Text.orElse r.defUnitType unit.type
    defUnit := Text.orElse r.defUnit unit.name }

/-- The key of a definition of a unit, which no other unit's definitions have by accident. -/
def Definition.keyIn (unit : SourceUnit) (d : Definition) : DefKey :=
  ⟨[], Text.orElse d.unitType unit.type, Text.orElse d.unit unit.name, d.path⟩

theorem Reference.load_eq_ownedBy (unit : SourceUnit) (r : Reference) :
    r.load unit = r.ownedBy unit := by
  rw [load, DefKey.normalize_eq]
  rfl

theorem Definition.normalize_key (unit : SourceUnit) (d : Definition) :
    d.key.normalize unit = d.keyIn unit := DefKey.normalize_eq unit d.key

namespace GraphData

def warning (disk : Disk) (store : Store) (target : Text × SourceUnit) : Record where
  stage := "loader"
  level := .warning
  message := Text.join [
    if store.lacks disk target.1 then "no build data for unit "
      else "the JSON file is empty for unit ",
    target.2.type, " ", target.2.name]

def recordOf (unit : SourceUnit) : Found → Record
  | .artifact artifact => ⟨"loader", .debug,
      Text.join ["Loaded ", Text.ofNat artifact.defs.length, " defs and ",
        Text.ofNat artifact.refs.length, " refs for unit ", unit.type, " ", unit.name]⟩
  | .empty => ⟨"loader", .warning,
      Text.join ["the JSON file is empty for unit ", unit.type, " ", unit.name]⟩
  | .missing => ⟨"loader", .warning,
      Text.join ["no build data for unit ", unit.type, " ", unit.name]⟩

variable {disk : Disk} {store : Store}

theorem logAfter_loadOne {target : Text × SourceUnit} {found : Found}
    (h : findArtifact disk store target.1 = .ok found) (data : GraphData) (log : Log) :
    Logged.logAfter (loadOne disk store data target.1 target.2) log =
      log ++ [recordOf target.2 found] := by
  unfold loadOne
  rw [h]
  cases found <;> rfl

/-- How the artifact of a target stands that does not end the loading. -/
inductive Stands (disk : Disk) (store : Store) (target : Text × SourceUnit) : Found → Prop
  | skipped {found : Found} (skips : store.skips disk target.1 = true)
      (passed : ∀ artifact, found ≠ .artifact artifact)
      (warned : recordOf target.2 found = warning disk store target) :
      Stands disk store target found
  | loaded {artifact : Artifact} (full : store.skips disk target.1 = false)
      (spelled : store.artifact? disk target.1 = some artifact) :
      Stands disk store target (.artifact artifact)

theorem exists_stands {target : Text × SourceUnit}
    (usable : store.isUnusable disk target.1 = false) :
    ∃ found, findArtifact disk store target.1 = .ok found ∧ Stands disk store target found := by
  cases skips : store.skips disk target.1 with
  | false =>
    rw [Store.isUnusable, skips, Bool.not_false, Bool.true_and, Option.isNone_eq_false_iff,
      Option.isSome_iff_exists] at usable
    obtain ⟨artifact, spelled⟩ := usable
    exact ⟨_, findArtifact_of_artifact? skips spelled, .loaded skips spelled⟩
  | true =>
    cases lacking : store.lacks disk target.1 with
    | true =>
      refine ⟨_, findArtifact_of_lacks lacking, .skipped skips (by simp) ?_⟩
      rw [warning, if_pos lacking]
      rfl
    | false =>
      have blank : store.hasBlank disk target.1 = true := by
        simpa [Store.skips, lacking] using skips
      refine ⟨_, findArtifact_of_hasBlank blank, .skipped skips (by simp) ?_⟩
      rw [warning, if_neg (by simp [lacking])]
      rfl

section Run

variable {targets : List (Text × SourceUnit)}

theorem loadFailure?_of_usable {target : Text × SourceUnit}
    (usable : store.isUnusable disk target.1 = false) : loadFailure? disk store target = none := by
  obtain ⟨found, h, -⟩ := exists_stands usable
  rw [loadFailure?, loadCause?, h]
  rfl

theorem loadFailure?_of_isUnusable {target : Text × SourceUnit}
    (unusable : store.isUnusable disk target.1 = true) (near : ¬store.NestsTooFar disk target.1) :
    ∃ cause, loadFailure? disk store target =
      some (.graphData ⟨target.1, target.2.type, target.2.name, cause⟩) := by
  obtain ⟨cause, h, deep⟩ := findArtifact_of_isUnusable unusable
  refine ⟨cause, ?_⟩
  rw [loadFailure?, loadCause?, h, Option.map_some, loadFailure]
  rintro bracket rfl
  exact near (deep ⟨bracket, rfl⟩)

theorem loaded?_of_skips {target : Text × SourceUnit} {found : Found}
    (h : findArtifact disk store target.1 = .ok found)
    (passed : ∀ artifact, found ≠ .artifact artifact) : loaded? disk store target = none := by
  rw [loaded?, h]
  cases found with
  | artifact artifact => exact absurd rfl (passed artifact)
  | empty => rfl
  | missing => rfl

theorem loaded?_of_full {target : Text × SourceUnit} {artifact : Artifact}
    (full : store.skips disk target.1 = false)
    (spelled : store.artifact? disk target.1 = some artifact) :
    loaded? disk store target = some (target.2, artifact) := by
  rw [loaded?, findArtifact_of_artifact? full spelled]

theorem forall₂_loaded (usable : ∀ target ∈ targets, store.isUnusable disk target.1 = false) :
    List.Forall₂ (fun target found => found.1 = target.2 ∧
        store.artifact? disk target.1 = some found.2)
      (targets.filter fun target => !store.skips disk target.1)
      (targets.filterMap (loaded? disk store)) := by
  induction targets with
  | nil => exact .nil
  | cons target rest ih =>
    obtain ⟨first, others⟩ := List.forall_mem_cons.mp usable
    obtain ⟨found, h, stands⟩ := exists_stands first
    cases stands with
    | skipped skips passed warned =>
      rw [List.filter_cons_of_neg (by simp [skips]),
        List.filterMap_cons_none (loaded?_of_skips h passed)]
      exact ih others
    | loaded full spelled =>
      rw [List.filter_cons_of_pos (by simp [full]),
        List.filterMap_cons_some (loaded?_of_full full spelled)]
      exact .cons ⟨rfl, spelled⟩ (ih others)

theorem logAfter_foldlM_loadOne
    (usable : ∀ target ∈ targets, store.isUnusable disk target.1 = false) (data : GraphData)
    (log : Log) :
    ∃ records, Logged.logAfter (targets.foldlM
        (fun data (target, unit) => loadOne disk store data target unit) data) log =
          log ++ records ∧
      records.filter (·.level = .warning) =
        (targets.filter fun target => store.skips disk target.1).map (warning disk store) := by
  induction targets generalizing data log with
  | nil => exact ⟨[], (List.append_nil log).symm, rfl⟩
  | cons target rest ih =>
    obtain ⟨first, others⟩ := List.forall_mem_cons.mp usable
    obtain ⟨found, h, stands⟩ := exists_stands first
    obtain ⟨records, written, warned⟩ := ih others
      (data.addAll (loaded? disk store target).toList) (log ++ [recordOf target.2 found])
    refine ⟨recordOf target.2 found :: records, ?_, ?_⟩
    · rw [List.foldlM_cons, Logged.logAfter_bind, outcome_loadOne, loadFailure?_of_usable first,
        logAfter_loadOne h]
      exact written.trans (List.append_assoc ..)
    · cases stands with
      | skipped skips passed same =>
        rw [same, List.filter_cons_of_pos (by rfl), warned,
          List.filter_cons_of_pos (by simpa using skips), List.map_cons]
      | loaded full spelled =>
        rw [List.filter_cons_of_neg (by simp [recordOf]), warned,
          List.filter_cons_of_neg (by simp [full])]

end Run

theorem nodup_addKey {keys : List DefKey} (h : keys.Nodup) (key : DefKey) :
    (addKey keys key).Nodup := by
  unfold addKey
  split
  · exact h
  · next unknown =>
    rw [List.contains_iff_mem] at unknown
    refine List.nodup_append.mpr ⟨h, by simp, ?_⟩
    rintro known inside other here rfl
    exact unknown (List.mem_singleton.mp here ▸ inside)

theorem nodup_keys_addAll {data : GraphData} (h : data.keys.Nodup)
    (units : List (SourceUnit × Artifact)) : (data.addAll units).keys.Nodup := by
  induction units generalizing data with
  | nil => exact h
  | cons first rest ih =>
    apply ih
    exact List.foldlRecOn _ addKey h fun keys distinct key _ => nodup_addKey distinct key

theorem outcome_load_of_unusable {rules : List Rule} {before after : List (Text × SourceUnit)}
    {target : Text × SourceUnit} (pairs : rules.flatMap Rule.artifacts = before ++ target :: after)
    (usable : ∀ earlier ∈ before, store.isUnusable disk earlier.1 = false)
    (unusable : store.isUnusable disk target.1 = true) (near : ¬store.NestsTooFar disk target.1)
    (log : Log) :
    ∃ cause, Logged.outcome (load disk store rules) log =
      .error (.graphData ⟨target.1, target.2.type, target.2.name, cause⟩) := by
  obtain ⟨cause, fails⟩ := loadFailure?_of_isUnusable unusable near
  have first : (rules.flatMap Rule.artifacts).findSome? (loadFailure? disk store) =
      some (.graphData ⟨target.1, target.2.type, target.2.name, cause⟩) :=
    List.findSome?_eq_some_iff.mpr ⟨before, target, after, pairs, fails,
      fun earlier inside => loadFailure?_of_usable (usable earlier inside)⟩
  exact ⟨cause, by rw [outcome_load, first]⟩

/-- Loading is all or first failure, and passes over nothing but what is missing or blank:
if a target is unusable, the first such target is reported with its unit; if none is, every
artifact is loaded in the order of its target, the known keys are those of the definitions,
and there is one warning for each target that is passed over. -/
theorem load_all_or_first_failure (disk : Disk) (store : Store) (rules : List Rule) (log : Log) :
    (∀ before target after, rules.flatMap Rule.artifacts = before ++ target :: after →
      (∀ earlier ∈ before, store.isUnusable disk earlier.1 = false) →
      store.isUnusable disk target.1 = true → ¬store.NestsTooFar disk target.1 →
      ∃ cause, Logged.outcome (load disk store rules) log =
        .error (.graphData ⟨target.1, target.2.type, target.2.name, cause⟩)) ∧
    ((∀ target ∈ rules.flatMap Rule.artifacts, store.isUnusable disk target.1 = false) →
      ∃ data records, Logged.outcome (load disk store rules) log = .ok data ∧
        List.Forall₂ (fun target loaded => ∃ artifact,
            store.artifact? disk target.1 = some artifact ∧ loaded.defs = artifact.defs ∧
            loaded.refs = artifact.refs.map (Reference.ownedBy target.2))
          ((rules.flatMap Rule.artifacts).filter fun target => !store.skips disk target.1)
          data.artifacts ∧
        data.keys.Nodup ∧
        (∀ key, key ∈ data.keys ↔ ∃ target ∈ rules.flatMap Rule.artifacts,
          store.skips disk target.1 = false ∧
          ∃ artifact, store.artifact? disk target.1 = some artifact ∧
            ∃ d ∈ artifact.defs, d.keyIn target.2 = key) ∧
        Logged.logAfter (load disk store rules) log = log ++ records ∧
        records.filter (·.level = .warning) =
          ((rules.flatMap Rule.artifacts).filter fun target => store.skips disk target.1).map
            (warning disk store)) := by
  refine ⟨fun before target after pairs usable unusable near =>
    outcome_load_of_unusable pairs usable unusable near log, fun usable => ?_⟩
  have none : (rules.flatMap Rule.artifacts).findSome? (loadFailure? disk store) = none :=
    List.findSome?_eq_none_iff.mpr fun target inside =>
      loadFailure?_of_usable (usable target inside)
  have found := forall₂_loaded usable
  obtain ⟨records, written, warned⟩ := logAfter_foldlM_loadOne usable ⟨[], []⟩ log
  refine ⟨addAll ⟨[], []⟩ (loaded disk store rules), records, by rw [outcome_load, none], ?_,
    nodup_keys_addAll List.nodup_nil _, fun key => ?_, written, warned⟩
  · rw [artifacts_addAll, List.nil_append, List.forall₂_map_right_iff]
    refine found.imp fun target unit ⟨same, spelled⟩ => ⟨unit.2, spelled, rfl, ?_⟩
    rw [refs_normalize, same]
    exact List.map_congr_left fun r _ => r.load_eq_ownedBy target.2
  · rw [mem_keys_addAll]
    simp only [List.not_mem_nil, false_or, Definition.normalize_key]
    constructor
    · rintro ⟨unit, artifact, isLoaded, d, defined, same⟩
      obtain ⟨target, inside, here⟩ := List.mem_filterMap.mp isLoaded
      obtain ⟨found, h, stands⟩ := exists_stands (usable target inside)
      cases stands with
      | skipped skips passed warned => simp [loaded?_of_skips h passed] at here
      | loaded full spelled =>
        rw [loaded?_of_full full spelled, Option.some.injEq, Prod.mk.injEq] at here
        obtain ⟨rfl, rfl⟩ := here
        exact ⟨target, inside, full, _, spelled, d, defined, same⟩
    · rintro ⟨target, inside, full, artifact, spelled, d, defined, same⟩
      refine ⟨target.2, artifact, ?_, d, defined, same⟩
      exact List.mem_filterMap.mpr ⟨target, inside, loaded?_of_full full spelled⟩

section Mixed

/-- Nothing for the first unit, a blank file for the second, an artifact for the third, and a
file that breaks off for the fourth. -/
def mixedDisk : Disk where
  top := .dir [("b", .dir [("t.graph.json", .file [32, 10])]),
    ("c", .dir [("t.graph.json", .file definingBytes)]),
    ("d", .dir [("t.graph.json", .file [91])])]
  workDir := []
  home := "/"

def mixedStore : Store := ⟨⟨.root, []⟩, 970⟩

def mixedUnit (name : Text) : SourceUnit := ⟨name, "t", [], []⟩

def mixedRules : List Rule :=
  [.graph "a/t.graph.json" (mixedUnit "a"), .depResolve "b/t.depresolve.json" (mixedUnit "b"),
    .graphs [("b/t.graph.json", mixedUnit "b"), ("c/t.graph.json", mixedUnit "c")]]

def brokenRules : List Rule :=
  mixedRules ++ [.graph "d/t.graph.json" (mixedUnit "d"), .graph "../x" (mixedUnit "x")]

theorem lacks_mixed : mixedStore.lacks mixedDisk "a/t.graph.json" = true := by
  have located : mixedStore.locate "a/t.graph.json" = .ok ⟨.root, ["a", "t.graph.json"]⟩ := rfl
  have missing : mixedDisk.find ⟨.root, ["a", "t.graph.json"]⟩ =
      .error (.system ⟨.notFound, "/a/t.graph.json"⟩) := by
    have parts : (⟨.root, ["a", "t.graph.json"]⟩ : Path).parts =
        ([] : List Text) ++ ("a" : Text) :: ["t.graph.json"] := rfl
    exact Disk.find_of_missing rfl parts rfl rfl (by decide) rfl rfl rfl
  rw [Store.lacks, Store.read_of_find_error located missing]
  rfl

theorem read_blank_mixed : mixedStore.read mixedDisk "b/t.graph.json" = .ok [32, 10] := by
  have located : mixedStore.locate "b/t.graph.json" = .ok ⟨.root, ["b", "t.graph.json"]⟩ := rfl
  exact Store.read_of_walk located rfl rfl rfl (by decide) rfl rfl

theorem read_full_mixed : mixedStore.read mixedDisk "c/t.graph.json" = .ok definingBytes := by
  have located : mixedStore.locate "c/t.graph.json" = .ok ⟨.root, ["c", "t.graph.json"]⟩ := rfl
  exact Store.read_of_walk located rfl rfl rfl (by decide) rfl rfl

theorem read_broken_mixed : mixedStore.read mixedDisk "d/t.graph.json" = .ok [91] := by
  have located : mixedStore.locate "d/t.graph.json" = .ok ⟨.root, ["d", "t.graph.json"]⟩ := rfl
  exact Store.read_of_walk located rfl rfl rfl (by decide) rfl rfl

theorem usable_mixed (target : Text × SourceUnit)
    (inside : target ∈ mixedRules.flatMap Rule.artifacts) :
    mixedStore.isUnusable mixedDisk target.1 = false := by
  have spelled : (mixedStore.artifact? mixedDisk "c/t.graph.json").isNone = false := by
    simp only [Store.artifact?, read_full_mixed, Except.toOption]
    decide +kernel
  simp only [mixedRules, Rule.artifacts, List.flatMap_cons, List.flatMap_nil, List.cons_append,
    List.nil_append, List.append_nil, List.mem_cons, List.not_mem_nil, or_false] at inside
  rcases inside with rfl | rfl | rfl
  · simp [Store.isUnusable, Store.skips, lacks_mixed]
  · simp [Store.isUnusable, Store.skips, Store.hasBlank, read_blank_mixed, Store.isEmptyDocument]
  · rw [Store.isUnusable, spelled, Bool.and_false]

theorem unusable_mixed : mixedStore.isUnusable mixedDisk "d/t.graph.json" = true := by
  simp only [Store.isUnusable, Store.skips, Store.lacks, Store.hasBlank, Store.artifact?,
    read_broken_mixed]
  rfl

theorem near_mixed : ¬mixedStore.NestsTooFar mixedDisk "d/t.graph.json" := by
  rintro ⟨bytes, bracket, read, deep⟩
  obtain rfl := eq_of_eq_ok read_broken_mixed read
  have malformed : Json.readBytes mixedStore.depth [91] = .error .malformed := rfl
  rw [malformed] at deep
  simp at deep

/-- The fourth unit is reported if it is among the units, though the fifth is refused as well.
Without them the third is loaded, and there are warnings for the first and the second. -/
theorem load_all_or_first_failure_mixed :
    (∃ cause, Logged.outcome (load mixedDisk mixedStore brokenRules) [] =
      .error (.graphData ⟨"d/t.graph.json", "t", "d", cause⟩)) ∧
    ∃ data records, Logged.outcome (load mixedDisk mixedStore mixedRules) [] = .ok data ∧
      List.Forall₂ (fun target loaded => ∃ artifact,
          mixedStore.artifact? mixedDisk target.1 = some artifact ∧
          loaded.defs = artifact.defs ∧
          loaded.refs = artifact.refs.map (Reference.ownedBy target.2))
        ((mixedRules.flatMap Rule.artifacts).filter fun target =>
          !mixedStore.skips mixedDisk target.1)
        data.artifacts ∧
      data.keys.Nodup ∧
      (∀ key, key ∈ data.keys ↔ ∃ target ∈ mixedRules.flatMap Rule.artifacts,
        mixedStore.skips mixedDisk target.1 = false ∧
        ∃ artifact, mixedStore.artifact? mixedDisk target.1 = some artifact ∧
          ∃ d ∈ artifact.defs, d.keyIn target.2 = key) ∧
      Logged.logAfter (load mixedDisk mixedStore mixedRules) [] = [] ++ records ∧
      records.filter (·.level = .warning) =
        ((mixedRules.flatMap Rule.artifacts).filter fun target =>
          mixedStore.skips mixedDisk target.1).map (warning mixedDisk mixedStore) := by
  constructor
  · exact (load_all_or_first_failure mixedDisk mixedStore brokenRules []).1
      (mixedRules.flatMap Rule.artifacts) ("d/t.graph.json", mixedUnit "d")
      [("../x", mixedUnit "x")] rfl usable_mixed unusable_mixed near_mixed
  · exact (load_all_or_first_failure mixedDisk mixedStore mixedRules []).2 usable_mixed

end Mixed

end GraphData

end IndexCoverage
