import IndexCoverage.Proofs.Coverage.Ordering
import IndexCoverage.Proofs.Coverage.Tallies
import IndexCoverage.Proofs.Inventory.Reading

/-! The order in which a report lists uncovered files. It is that of the walk, and not that of the
paths: a directory comes behind the files beside it, and two directories come in the order of their
names without the slash that follows them in the paths. -/

namespace IndexCoverage

theorem uncoveredFiles_sublist {files : Inventory} {report : Report}
    (h : files.summarize = .ok report) {language : Text} {coverage : LanguageCoverage}
    (inside : (language, coverage) ∈ report) :
    coverage.uncoveredFiles.Sublist (files.map SourceFile.path) := by
  obtain ⟨-, computed⟩ := Inventory.coverage_of_summarize h inside
  obtain ⟨-, -, -, listed⟩ := Tally.coverage_eq_ok_iff.mp computed
  rw [← listed]
  have uncovered : ((files.inLanguage language).filter (!·.covered)).Sublist files :=
    List.filter_sublist.trans List.filter_sublist
  exact uncovered.map SourceFile.path

/-- The uncovered files of a language are in the order of the walk. Their paths ascend exactly if no
two of them are misplaced: neither a file beside a directory whose name comes first with the slash
behind it, nor a directory beside another whose name comes first only with the slashes. -/
theorem uncoveredFiles_ascending_iff {limits : Limits} {disk : Disk} {context : Context} {log : Log}
    {report : Report} (named : disk.top.isWellNamed = true)
    (h : Logged.outcome (context.report limits disk) log = .ok report) {language : Text}
    {coverage : LanguageCoverage} (inside : (language, coverage) ∈ report) :
    coverage.uncoveredFiles.Pairwise (fun path other =>
        Precedes (pathNames path) (pathNames other)) ∧
      (coverage.uncoveredFiles.Pairwise (fun path other => Text.before path other = true) ↔
        ∀ path ∈ coverage.uncoveredFiles, ∀ other ∈ coverage.uncoveredFiles,
          ¬Misplaced (pathNames path) (pathNames other)) := by
  obtain ⟨files, store, data, built, -, -, summed⟩ := Context.outcome_report_eq_ok_iff.mp h
  have listed := uncoveredFiles_sublist (mapError_eq_ok_iff.mp summed) inside
  rw [data.map_path_foldInto] at listed
  have walked : coverage.uncoveredFiles.Pairwise fun path other =>
      Precedes (pathNames path) (pathNames other) :=
    (Inventory.precedes_of_build named built).sublist listed
  exact ⟨walked, pairwise_before_iff walked⟩

section Beside

def besideDisk : Disk where
  top := .dir [("z.go", .file []), ("a", .dir [("b.go", .file [])]),
    ("a-b", .dir [("c.go", .file [])]), ("config.json", .file (documentBytes (treeDocument [])))]
  workDir := []
  home := "/"

def besideFiles : Inventory :=
  [{ path := "z.go", language := "Go", loc := 0 },
    { path := "a/b.go", language := "Go", loc := 0 },
    { path := "a-b/c.go", language := "Go", loc := 0 }]

def besideCoverage : LanguageCoverage :=
  ⟨.ofQuotient false 0 3, noScore, noScore, ["z.go", "a/b.go", "a-b/c.go"]⟩

def besideStops : List Stop :=
  [{ names := ["config.json"] }, { names := ["z.go"] }, { names := ["a", "b.go"] },
    { names := ["a-b", "c.go"] }]

theorem stops_besideDisk :
    besideDisk.stops besideDisk.canList 970 [] besideDisk.top = besideStops := by
  have top : besideDisk.canList [] = true := Disk.LiesAt.canList ⟨rfl, rfl, by decide, rfl, rfl⟩
  have a : besideDisk.canList ["a"] = true :=
    Disk.LiesAt.canList ⟨rfl, rfl, by decide, rfl, rfl⟩
  have b : besideDisk.canList ["a-b"] = true :=
    Disk.LiesAt.canList ⟨rfl, rfl, by decide, rfl, rfl⟩
  have inner (name : Text) : Disk.listed [(name, .file)] = [{ names := [name] }] := by
    rw [Disk.listed, Disk.byName_eq _ (.refl _) (List.pairwise_singleton ..)]
    rfl
  have outer : Disk.listed [("z.go", .file), ("a", .tree [{ names := ["b.go"] }]),
      ("a-b", .tree [{ names := ["c.go"] }]), ("config.json", .file)] = besideStops := by
    rw [Disk.listed, Disk.byName_eq [("a", .tree [{ names := ["b.go"] }]),
      ("a-b", .tree [{ names := ["c.go"] }]), ("config.json", .file), ("z.go", .file)]
      (by decide) (by decide)]
    rfl
  have visible : Disk.isHidden "a" = false ∧ Disk.isHidden "a-b" = false := by decide
  generalize besideDisk.canList = lists at top a b ⊢
  simp only [besideDisk, Disk.stops, Disk.branches, List.nil_append, top, a, b, visible, if_true,
    Bool.false_eq_true, if_false, inner, outer]

theorem build_besideDisk :
    Logged.outcome (Inventory.build besideDisk 970 "/") [] = .ok besideFiles := by
  have found {names : List Text} (lies : besideDisk.LiesAt names (.file []))
      (known : Source.languageOf? (Inventory.shownPath names) = some ("Go" : Text)) :
      Inventory.FoundAt besideDisk [] names
        { path := Inventory.shownPath names, language := "Go", loc := 0 } :=
    Inventory.foundAt_of_liesAt lies rfl known (by decide +kernel)
  have top : besideDisk.LiesAt [] besideDisk.top := ⟨rfl, rfl, by decide, rfl, rfl⟩
  have spelled : Path.ofText "/" = Path.ofPlace [] := rfl
  have walk := congrArg (List.filter Inventory.counts) stops_besideDisk
  exact Inventory.outcome_build_of_found top spelled rfl walk
    (.cons (found ⟨rfl, rfl, by decide, rfl, rfl⟩ rfl)
      (.cons (found ⟨rfl, rfl, by decide, rfl, rfl⟩ rfl)
        (.cons (found ⟨rfl, rfl, by decide, rfl, rfl⟩ rfl) .nil))) []

theorem report_besideDisk :
    Logged.outcome (twoUnitContext.report {} besideDisk) [] = .ok [("Go", besideCoverage)] := by
  have located : twoUnitStore.locate TreeConfig.fileName = .ok ⟨.root, ["config.json"]⟩ := rfl
  have read : TreeConfig.read besideDisk twoUnitStore = .ok ⟨[]⟩ :=
    TreeConfig.read_of_bytes (Store.read_of_walk located rfl rfl rfl (by decide) rfl rfl)
      (by decide +kernel)
  refine Context.outcome_report_eq_ok_iff.mpr ⟨besideFiles, twoUnitStore, ⟨[], []⟩,
    build_besideDisk, rfl, ?_, by decide +kernel⟩
  exact Context.outcome_graphData_eq_ok_iff.mpr ⟨⟨[]⟩, [], read, rfl, rfl⟩

/-- In the order of the walk each of these paths comes after the next. -/
theorem uncoveredFiles_not_ascending :
    besideDisk.top.isWellNamed = true ∧
      Logged.outcome (twoUnitContext.report {} besideDisk) [] = .ok [("Go", besideCoverage)] ∧
      ¬besideCoverage.uncoveredFiles.Pairwise fun path other => Text.before path other = true :=
  ⟨rfl, report_besideDisk, by decide +kernel⟩

/-- The files are in the order of the walk, and some of them are misplaced. -/
theorem uncoveredFiles_ascending_iff_beside :
    besideDisk.top.isWellNamed = true ∧
      Logged.outcome (twoUnitContext.report {} besideDisk) [] = .ok [("Go", besideCoverage)] ∧
      besideCoverage.uncoveredFiles.Pairwise (fun path other =>
        Precedes (pathNames path) (pathNames other)) ∧
      ¬∀ path ∈ besideCoverage.uncoveredFiles, ∀ other ∈ besideCoverage.uncoveredFiles,
        ¬Misplaced (pathNames path) (pathNames other) := by
  have named : besideDisk.top.isWellNamed = true := rfl
  obtain ⟨walked, ascending⟩ :=
    uncoveredFiles_ascending_iff named report_besideDisk (List.mem_singleton_self _)
  refine ⟨named, report_besideDisk, walked, ascending.not.mp ?_⟩
  decide +kernel

end Beside
end IndexCoverage
