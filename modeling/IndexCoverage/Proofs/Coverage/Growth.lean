import IndexCoverage.Proofs.Coverage.Ordering
import IndexCoverage.Proofs.Coverage.Scores
import Mathlib.Data.List.Flatten

/-! More source units never lower the coverage. What was known stays known, so that no count
of a file falls, no covered file is lost, and no language has a lower share of covered files. -/

namespace IndexCoverage
namespace GraphData

/-- Whatever the first data holds is in the second, as often at least. -/
structure Grows (data more : GraphData) : Prop where
  keys : ∀ key ∈ data.keys, key ∈ more.keys
  refs : data.refs.Subperm more.refs
  defs : data.defs.Subperm more.defs

theorem subperm_flatMap {α β : Type} (f : α → List β) {items more : List α}
    (h : items.Subperm more) : (items.flatMap f).Subperm (more.flatMap f) := by
  obtain ⟨middle, perm, sublist⟩ := h
  exact ⟨middle.flatMap f, perm.flatMap_right f, sublist.flatMap f⟩

theorem addAll_grows {units more : List (SourceUnit × Artifact)} (h : units.Subperm more) :
    (addAll ⟨[], []⟩ units).Grows (addAll ⟨[], []⟩ more) where
  keys key := by
    simp only [mem_keys_addAll]
    rintro (none | ⟨unit, artifact, inside, found⟩)
    · exact .inl none
    · exact .inr ⟨unit, artifact, h.subset inside, found⟩
  refs := by
    rw [refs_addAll, refs_addAll]
    exact subperm_flatMap _ h
  defs := by
    rw [defs_addAll, defs_addAll]
    exact subperm_flatMap _ h

theorem Grows.isValid {data more : GraphData} (h : data.Grows more) {r : Reference}
    (valid : r.isValid data.keys) : r.isValid more.keys := by
  rw [Reference.isValid, Bool.or_eq_true, List.contains_iff_mem] at valid ⊢
  exact valid.imp_right (h.keys _)

end GraphData

namespace SourceFile

structure Gains (file more : SourceFile) : Prop where
  path : more.path = file.path
  language : more.language = file.language
  loc : more.loc = file.loc
  numDefs : file.numDefs ≤ more.numDefs
  numRefs : file.numRefs ≤ more.numRefs
  numRefsValid : file.numRefsValid ≤ more.numRefsValid

theorem gains_count {data more : GraphData} (h : data.Grows more) (file : SourceFile) :
    (data.count file).Gains (more.count file) where
  path := rfl
  language := rfl
  loc := rfl
  numDefs := Int.add_le_add_left (Int.ofNat_le.mpr (h.defs.countP_le _)) _
  numRefs := Int.add_le_add_left (Int.ofNat_le.mpr (h.refs.countP_le _)) _
  numRefsValid := by
    refine Int.add_le_add_left (Int.ofNat_le.mpr ?_) _
    refine (h.refs.countP_le _).trans (List.countP_mono_left fun r _ valid => ?_)
    rw [GraphData.isValidIn, Bool.and_eq_true] at valid ⊢
    exact ⟨valid.1, h.isValid valid.2⟩

theorem isCovered_eq_ok_iff {file : SourceFile} {covered : Bool} (nonzero : file.loc ≠ 0) :
    file.isCovered = .ok covered ↔ ∃ quotient,
      ratio (file.numDefs + file.numRefsValid) file.loc = .ok quotient ∧
        coveredThreshold.less quotient = covered := by
  rw [isCovered, if_neg nonzero, map_eq_ok_iff]

theorem Gains.isCovered {data : GraphData} {file more : SourceFile} (gains : file.Gains more)
    (counted : file.Counted data) (h : file.isCovered = .ok true) {covered : Bool}
    (computed : more.isCovered = .ok covered) : covered = true := by
  have nonzero : file.loc ≠ 0 := by
    intro zero
    simp [SourceFile.isCovered, zero] at h
  have positive : 0 < file.loc := lt_of_le_of_ne counted.loc nonzero.symm
  have part := counted.numDefs_add_numRefsValid_nonneg
  have parts : file.numDefs + file.numRefsValid ≤ more.numDefs + more.numRefsValid :=
    add_le_add gains.numDefs gains.numRefsValid
  obtain ⟨low, first, above⟩ := (isCovered_eq_ok_iff nonzero).mp h
  obtain ⟨high, second, rfl⟩ := (isCovered_eq_ok_iff (gains.loc ▸ nonzero)).mp computed
  rw [gains.loc, ratio_eq_ok_iff (part.trans parts) positive] at second
  rw [ratio_eq_ok_iff part positive] at first
  have exact : ((file.numDefs + file.numRefsValid : Int) : ℚ) / file.loc ≤
      ((more.numDefs + more.numRefsValid : Int) : ℚ) / file.loc := by
    have whole : (0 : ℚ) ≤ file.loc := by exact_mod_cast positive.le
    exact div_le_div_of_nonneg_right (by exact_mod_cast parts) whole
  have nonneg : 0 ≤ ((file.numDefs + file.numRefsValid : Int) : ℚ) / file.loc := by positivity
  exact (Binary64.nearest?_mono nonneg exact first second).less_of_less above

end SourceFile

theorem filter_sublist_filter {α : Type} {p q : α → Bool} {items : List α}
    (h : ∀ item ∈ items, p item → q item) : (items.filter p).Sublist (items.filter q) := by
  have both : items.filter p = (items.filter q).filter p := by
    rw [List.filter_filter]
    refine List.filter_congr fun item inside => ?_
    cases holds : p item with
    | false => rfl
    | true => simp [h item inside holds]
  rw [both]
  exact List.filter_sublist

section Language

variable {data more : GraphData} {own : Inventory} {coverage grown : LanguageCoverage}

theorem coverage_gains (h : data.Grows more) (fresh : ∀ file ∈ own, file.Fresh)
    (nonempty : own ≠ [])
    (computed : ∀ file ∈ own, ∃ covered, (data.count file).isCovered = .ok covered)
    (computedMore : ∀ file ∈ own, ∃ covered, (more.count file).isCovered = .ok covered)
    (first : (Tally.of (own.map data.count)).coverage = .ok coverage)
    (second : (Tally.of (own.map more.count)).coverage = .ok grown) :
    coverage.fileScore.AtMost grown.fileScore ∧
      grown.uncoveredFiles.Sublist coverage.uncoveredFiles := by
  have kept : ∀ file ∈ own, (data.count file).covered → (more.count file).covered := by
    intro file inside covered
    obtain ⟨here, known⟩ := computed file inside
    obtain ⟨there, knownMore⟩ := computedMore file inside
    rw [SourceFile.covered_of_isCovered known] at covered
    subst covered
    rw [SourceFile.covered_of_isCovered knownMore]
    have counted := (fresh file inside).counted data
    exact (SourceFile.gains_count h file).isCovered counted known knownMore
  obtain ⟨lower, -, -, listed⟩ := Tally.coverage_eq_ok_iff.mp first
  obtain ⟨higher, -, -, listedMore⟩ := Tally.coverage_eq_ok_iff.mp second
  simp only [Tally.of, List.length_map, List.countP_map] at lower higher
  constructor
  · have files : (own.length : Int) ≠ 0 := by simpa using nonempty
    have part : (0 : Int) ≤ own.countP (SourceFile.covered ∘ data.count) := Int.natCast_nonneg _
    have partMore : (0 : Int) ≤ own.countP (SourceFile.covered ∘ more.count) := Int.natCast_nonneg _
    rw [score_eq_ok_iff part (Int.natCast_nonneg _)] at lower
    rw [score_eq_ok_iff partMore (Int.natCast_nonneg _)] at higher
    refine Binary64.nearest?_mono (exactScore_nonneg part (Int.natCast_nonneg _) files) ?_
      lower higher
    exact exactScore_mono (Int.natCast_nonneg _) (Int.ofNat_le.mpr (List.countP_mono_left kept))
  · rw [← listed, ← listedMore]
    simp only [Tally.of, List.filter_map, List.map_map]
    refine List.Sublist.map _ (filter_sublist_filter fun file inside uncovered => ?_)
    simp only [Function.comp, Bool.not_eq_true'] at uncovered ⊢
    cases covered : (data.count file).covered with
    | false => rfl
    | true => simp [kept file inside covered] at uncovered

end Language

theorem forall₂_of_common {α β γ : Type} {R : α → β → Prop} {S : α → γ → Prop} {T : β → γ → Prop}
    {items : List α} {lefts : List β} {rights : List γ} (first : List.Forall₂ R items lefts)
    (second : List.Forall₂ S items rights)
    (h : ∀ item ∈ items, ∀ left right, R item left → S item right → T left right) :
    List.Forall₂ T lefts rights := by
  induction first generalizing rights with
  | nil =>
    cases second
    exact .nil
  | cons here _ ih =>
    obtain _ | ⟨there, others⟩ := second
    exact .cons (h _ (List.mem_cons_self ..) _ _ here there)
      (ih others fun item inside => h item (List.mem_cons_of_mem _ inside))

theorem summarize_gains {data more : GraphData} (h : data.Grows more) {files : Inventory}
    (fresh : ∀ file ∈ files, file.Fresh) {report grown : Report}
    (first : (data.foldInto files).summarize = .ok report)
    (second : (more.foldInto files).summarize = .ok grown) :
    List.Forall₂ (fun file other => file.Gains other ∧
        (file.isCovered = .ok true → other.isCovered = .ok true))
      (data.foldInto files) (more.foldInto files) ∧
    List.Forall₂ (fun entry other => other.1 = entry.1 ∧
        entry.2.fileScore.AtMost other.2.fileScore ∧
        other.2.uncoveredFiles.Sublist entry.2.uncoveredFiles) report grown := by
  obtain ⟨computed, entries⟩ := Inventory.summarize_eq_ok_iff.mp first
  obtain ⟨computedMore, entriesMore⟩ := Inventory.summarize_eq_ok_iff.mp second
  rw [languages_foldInto] at entries entriesMore
  rw [GraphData.foldInto_eq_map, List.forall_mem_map] at computed computedMore
  constructor
  · rw [GraphData.foldInto_eq_map, GraphData.foldInto_eq_map, List.forall₂_map_left_iff,
      List.forall₂_map_right_iff, List.forall₂_same]
    intro file inside
    have gains := SourceFile.gains_count h file
    refine ⟨gains, fun covered => ?_⟩
    obtain ⟨there, known⟩ := computedMore file inside
    rw [known, gains.isCovered ((fresh file inside).counted data) covered known]
  · refine forall₂_of_common entries entriesMore ?_
    rintro language known ⟨name, coverage⟩ ⟨other, wide⟩ ⟨same, made⟩ ⟨sameMore, madeMore⟩
    rw [inLanguage_foldInto] at made madeMore
    have gains := coverage_gains h (Inventory.forall_inLanguage fresh language)
      (Inventory.inLanguage_ne_nil known) (Inventory.forall_inLanguage computed language)
      (Inventory.forall_inLanguage computedMore language) made madeMore
    exact ⟨sameMore.trans same.symm, gains⟩

theorem perm_loaded {disk : Disk} {store : Store} {config : TreeConfig} {grouped : List Text}
    {rules : List Rule} (planned : config.plan grouped = .ok rules) :
    (loaded disk store rules).Perm (config.targets.filterMap (loaded? disk store)) :=
  (TreeConfig.perm_plan planned).filterMap _

theorem subperm_loaded {disk other : Disk} {store : Store} {config wider : TreeConfig}
    {grouped : List Text} {rules others : List Rule} (units : config.units.Sublist wider.units)
    (artifacts : ∀ unit ∈ config.units,
      findArtifact other store unit.graphTarget = findArtifact disk store unit.graphTarget)
    (planned : config.plan grouped = .ok rules) (plannedMore : wider.plan grouped = .ok others) :
    (loaded disk store rules).Subperm (loaded other store others) := by
  have same : config.targets.filterMap (loaded? disk store) =
      config.targets.filterMap (loaded? other store) := by
    refine List.filterMap_congr fun target inside => ?_
    obtain ⟨unit, there, rfl⟩ := List.mem_map.mp inside
    rw [loaded?, loaded?, artifacts unit there]
  have targets : config.targets.Sublist wider.targets := units.map _
  have found := targets.filterMap (loaded? other store)
  rw [← same] at found
  exact (perm_loaded planned).subperm.trans
    (found.subperm.trans (perm_loaded plannedMore).symm.subperm)

namespace Context

/-- With more units in the configuration no count of a tracked file is lower, every covered
file stays covered, no language has a lower share of covered files, and no other files are
listed as uncovered than before. -/
theorem report_grows {limits : Limits} {disk : Disk} {context : Context} {store : Store}
    {config wider : TreeConfig} {log : Log} {report grown : Report}
    (edit : List Text → Bytes → Bytes)
    (located : context.store limits disk = .ok store)
    (tree : Inventory.SameSources disk (disk.edit edit) limits.dirs context.treeRoot.text)
    (read : TreeConfig.read disk store = .ok config)
    (readMore : TreeConfig.read (disk.edit edit) store = .ok wider)
    (units : config.units.Sublist wider.units)
    (artifacts : ∀ unit ∈ config.units, findArtifact (disk.edit edit) store unit.graphTarget =
      findArtifact disk store unit.graphTarget)
    (h : Logged.outcome (context.report limits disk) log = .ok report)
    (more : Logged.outcome (context.report limits (disk.edit edit)) log = .ok grown) :
    ∃ files data wide,
      Logged.outcome (Inventory.build disk limits.dirs context.treeRoot.text) log = .ok files ∧
      Logged.outcome (graphData disk store context.settings.multiUnitTypes) [] = .ok data ∧
      Logged.outcome (graphData (disk.edit edit) store context.settings.multiUnitTypes) [] =
        .ok wide ∧
      List.Forall₂ (fun file other => file.Gains other ∧
          (file.isCovered = .ok true → other.isCovered = .ok true))
        (data.foldInto files) (wide.foldInto files) ∧
      List.Forall₂ (fun entry other => other.1 = entry.1 ∧
          entry.2.fileScore.AtMost other.2.fileScore ∧
          other.2.uncoveredFiles.Sublist entry.2.uncoveredFiles) report grown := by
  obtain ⟨files, found, data, built, atStore, loading, summed⟩ := outcome_report_eq_ok_iff.mp h
  obtain rfl : store = found := eq_of_eq_ok located atStore
  obtain ⟨again, found, wide, builtMore, atStore, loadingMore, summedMore⟩ :=
    outcome_report_eq_ok_iff.mp more
  rw [store_edit] at atStore
  obtain rfl : store = found := eq_of_eq_ok located atStore
  rw [Inventory.build_edit edit tree] at builtMore
  obtain rfl : files = again := eq_of_eq_ok built builtMore
  have grows : data.Grows wide := by
    obtain ⟨found, rules, foundRead, planned, loaded⟩ := outcome_graphData_eq_ok_iff.mp loading
    obtain rfl : config = found := eq_of_eq_ok read foundRead
    obtain ⟨found, others, foundRead, plannedMore, loadedMore⟩ :=
      outcome_graphData_eq_ok_iff.mp loadingMore
    obtain rfl : wider = found := eq_of_eq_ok readMore foundRead
    rw [GraphData.outcome_load_eq_ok loaded, GraphData.outcome_load_eq_ok loadedMore]
    exact GraphData.addAll_grows (subperm_loaded units artifacts planned plannedMore)
  refine ⟨files, data, wide, built, loading, loadingMore, ?_⟩
  exact summarize_gains grows (Inventory.fresh_build built) (mapError_eq_ok_iff.mp summed)
    (mapError_eq_ok_iff.mp summedMore)

end Context

section FirstUnit

def firstUnitTree : Json.Value := treeDocument [unitDocument "a" "go"]

def firstUnitDisk : Disk :=
  twoUnitDisk firstUnitTree (artifactDocument shuffledDefs shuffledRefs)
    (artifactDocument [defDocument "h" "main.go"] [])

def addSecondUnit (_ : List Text) (content : Bytes) : Bytes :=
  if content = documentBytes firstUnitTree then documentBytes (treeDocument shuffledUnits)
  else content

theorem edit_firstUnitDisk : firstUnitDisk.edit addSecondUnit = shuffledDisk := by
  have tree (place : List Text) : addSecondUnit place (documentBytes firstUnitTree) =
      documentBytes (treeDocument shuffledUnits) := if_pos rfl
  have others (place : List Text) : addSecondUnit place sourceBytes = sourceBytes ∧
      addSecondUnit place (documentBytes (artifactDocument shuffledDefs shuffledRefs)) =
        documentBytes (artifactDocument shuffledDefs shuffledRefs) ∧
      addSecondUnit place (documentBytes (artifactDocument [defDocument "h" "main.go"] [])) =
        documentBytes (artifactDocument [defDocument "h" "main.go"] []) := by
    have apart : sourceBytes ≠ documentBytes firstUnitTree ∧
        documentBytes (artifactDocument shuffledDefs shuffledRefs) ≠ documentBytes firstUnitTree ∧
        documentBytes (artifactDocument [defDocument "h" "main.go"] []) ≠
          documentBytes firstUnitTree := by decide +kernel
    exact ⟨if_neg apart.1, if_neg apart.2.1, if_neg apart.2.2⟩
  simp only [firstUnitDisk, shuffledDisk, twoUnitDisk, Disk.edit, Node.edit, Node.editIn, tree,
    others]

def firstUnitReport : Report :=
  [("Go", ⟨.ofQuotient false 0 1, .ofQuotient false 1 3, .ofQuotient false 1 1, ["main.go"]⟩)]

theorem read_firstUnitDisk : TreeConfig.read firstUnitDisk twoUnitStore =
    .ok ⟨[⟨"a", "go", [], []⟩]⟩ :=
  read_twoUnitDisk _ _ (by decide +kernel)

theorem findArtifact_firstUnitDisk : findArtifact firstUnitDisk twoUnitStore "a/go.graph.json" =
    .ok (.artifact shuffledFirst) :=
  findFirst_twoUnitDisk _ _ (by decide +kernel)

/-- With the second unit a reference of the first becomes valid, and the file covered. -/
theorem report_firstUnit_grows :
    Logged.outcome (twoUnitContext.report {} firstUnitDisk) [] = .ok firstUnitReport ∧
      Logged.outcome (twoUnitContext.report {} (firstUnitDisk.edit addSecondUnit)) [] =
        .ok shuffledReport ∧
      ∃ files data wide,
        Logged.outcome (Inventory.build firstUnitDisk (Limits.dirs {})
          twoUnitContext.treeRoot.text) [] = .ok files ∧
        Logged.outcome (Context.graphData firstUnitDisk twoUnitStore
          twoUnitContext.settings.multiUnitTypes) [] = .ok data ∧
        Logged.outcome (Context.graphData (firstUnitDisk.edit addSecondUnit) twoUnitStore
          twoUnitContext.settings.multiUnitTypes) [] = .ok wide ∧
        List.Forall₂ (fun file other => file.Gains other ∧
            (file.isCovered = .ok true → other.isCovered = .ok true))
          (data.foldInto files) (wide.foldInto files) ∧
        List.Forall₂ (fun entry other => other.1 = entry.1 ∧
            entry.2.fileScore.AtMost other.2.fileScore ∧
            other.2.uncoveredFiles.Sublist entry.2.uncoveredFiles)
          firstUnitReport shuffledReport := by
  have before : Logged.outcome (twoUnitContext.report {} firstUnitDisk) [] = .ok firstUnitReport :=
    report_twoUnitDisk [(⟨"a", "go", [], []⟩, shuffledFirst)] read_firstUnitDisk rfl
      (.cons ⟨rfl, findArtifact_firstUnitDisk⟩ .nil) (by decide +kernel)
  have after : Logged.outcome (twoUnitContext.report {} (firstUnitDisk.edit addSecondUnit)) [] =
      .ok shuffledReport := by
    rw [edit_firstUnitDisk]
    exact report_shuffledDisk
  have readMore : TreeConfig.read (firstUnitDisk.edit addSecondUnit) twoUnitStore =
      .ok shuffledConfig := by
    rw [edit_firstUnitDisk]
    exact read_twoUnitDisk _ _ (by decide +kernel)
  have tree : Inventory.SameSources firstUnitDisk (firstUnitDisk.edit addSecondUnit) 970 "/" :=
    sameSources_twoUnitDisk _ _ _ fun _ => if_neg (by decide +kernel)
  have units : List.Sublist [⟨"a", "go", [], []⟩] shuffledConfig.units :=
    .cons_cons _ (List.nil_sublist _)
  have located : twoUnitContext.store {} firstUnitDisk = .ok twoUnitStore := rfl
  refine ⟨before, after, Context.report_grows addSecondUnit located tree read_firstUnitDisk readMore
    units ?_ before after⟩
  intro unit inside
  rw [List.mem_singleton.mp inside, edit_firstUnitDisk]
  exact (findFirst_twoUnitDisk _ _ (by decide +kernel)).trans findArtifact_firstUnitDisk.symm

end FirstUnit
end IndexCoverage
