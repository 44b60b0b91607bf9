import IndexCoverage.Coverage.Summary
import IndexCoverage.Proofs.Log.Outcome
import IndexCoverage.Proofs.Text.Appearance
import Mathlib.Algebra.Ring.Int.Defs

/-! What a summary comes to: an entry for each language of the files, in the order in which
the languages first appear, with the coverage of the files in that language together. -/

namespace IndexCoverage

def SourceFile.covered (file : SourceFile) : Bool := file.isCovered.toOption.getD false

theorem SourceFile.covered_of_isCovered {file : SourceFile} {covered : Bool}
    (h : file.isCovered = .ok covered) : file.covered = covered := by
  rw [SourceFile.covered, h]
  rfl

namespace Inventory

def languages (files : Inventory) : List Text :=
  (files.map SourceFile.language).reverse.dedup.reverse

def inLanguage (language : Text) (files : Inventory) : Inventory :=
  files.filter fun file => file.language = language

theorem nodup_languages (files : Inventory) : files.languages.Nodup := Text.nodup_firsts _

theorem mem_languages {files : Inventory} {language : Text} :
    language ∈ files.languages ↔ ∃ file ∈ files, file.language = language :=
  Text.mem_firsts.trans List.mem_map

theorem languages_concat_of_mem {files : Inventory} {file : SourceFile}
    (h : file.language ∈ files.languages) : languages (files ++ [file]) = files.languages := by
  rw [languages, List.map_append]
  exact Text.firsts_concat_of_mem (Text.mem_firsts.mp h)

theorem languages_concat_of_notMem {files : Inventory} {file : SourceFile}
    (h : file.language ∉ files.languages) :
    languages (files ++ [file]) = files.languages ++ [file.language] := by
  rw [languages, List.map_append]
  exact Text.firsts_concat_of_notMem (mt Text.mem_firsts.mpr h)

theorem inLanguage_concat (language : Text) (files : Inventory) (file : SourceFile) :
    inLanguage language (files ++ [file]) =
      if language = file.language then files.inLanguage language ++ [file]
      else files.inLanguage language := by
  rw [inLanguage, List.filter_append]
  by_cases h : language = file.language
  · simp [h, inLanguage]
  · simp [h, Ne.symm h, inLanguage]

theorem inLanguage_eq_nil {language : Text} {files : Inventory} (h : language ∉ files.languages) :
    files.inLanguage language = [] := by
  rw [inLanguage, List.filter_eq_nil_iff]
  intro file inside same
  exact h (mem_languages.mpr ⟨file, inside, by simpa using same⟩)

theorem inLanguage_ne_nil {language : Text} {files : Inventory} (h : language ∈ files.languages) :
    files.inLanguage language ≠ [] := by
  obtain ⟨file, inside, same⟩ := mem_languages.mp h
  exact List.ne_nil_of_mem (List.mem_filter.mpr ⟨inside, by simpa using same⟩)

theorem forall_inLanguage {files : Inventory} {p : SourceFile → Prop} (h : ∀ file ∈ files, p file)
    (language : Text) : ∀ file ∈ files.inLanguage language, p file :=
  fun file inside => h file (List.mem_of_mem_filter inside)

end Inventory

def Tally.of (files : Inventory) : Tally where
  numFiles := files.length
  numCoveredFiles := files.countP SourceFile.covered
  numDefs := (files.map SourceFile.numDefs).sum
  numRefs := (files.map SourceFile.numRefs).sum
  numRefsValid := (files.map SourceFile.numRefsValid).sum
  loc := (files.map SourceFile.loc).sum
  uncoveredFiles := (files.filter (!·.covered)).map SourceFile.path

theorem Tally.add_of (files : Inventory) (file : SourceFile) :
    (Tally.of files).add file = file.isCovered.map fun _ => Tally.of (files ++ [file]) := by
  rw [Tally.add]
  cases h : file.isCovered with
  | error e => rfl
  | ok covered =>
    have known := SourceFile.covered_of_isCovered h
    cases covered <;>
      simp [Tally.of, known, Except.map, Bind.bind, Except.bind, pure, Except.pure]

theorem Tally.coverage_eq_ok_iff {tally : Tally} {coverage : LanguageCoverage} :
    tally.coverage = .ok coverage ↔
      score tally.numCoveredFiles tally.numFiles = .ok coverage.fileScore ∧
        score tally.numRefsValid tally.numRefs = .ok coverage.refScore ∧
        score (tally.numDefs + tally.numRefs) tally.loc = .ok coverage.tokDensity ∧
        tally.uncoveredFiles = coverage.uncoveredFiles := by
  simp only [Tally.coverage, do_eq_ok_iff, pure_eq_ok_iff]
  constructor
  · rintro ⟨fileScore, first, refScore, second, tokDensity, third, rfl⟩
    exact ⟨first, second, third, rfl⟩
  · rintro ⟨first, second, third, listed⟩
    exact ⟨_, first, _, second, _, third, by rw [listed]⟩

theorem addFile_map (file : SourceFile) {languages : List Text} (nodup : languages.Nodup)
    (tally : Text → Tally) :
    addFile file (languages.map fun language => (language, tally language)) =
      if file.language ∈ languages then
        ((tally file.language).add file).map fun next =>
          languages.map fun language =>
            (language, if language = file.language then next else tally language)
      else (Tally.add {} file).map fun next =>
        languages.map (fun language => (language, tally language)) ++ [(file.language, next)] := by
  induction languages with
  | nil =>
    rw [List.map_nil, addFile]
    cases Tally.add {} file <;> rfl
  | cons language rest ih =>
    obtain ⟨absent, nodup⟩ := List.nodup_cons.mp nodup
    rw [List.map_cons, addFile]
    by_cases same : language = file.language
    · subst same
      have others (next : Tally) : (rest.map fun language =>
            (language, if language = file.language then next else tally language)) =
          rest.map fun language => (language, tally language) := by
        refine List.map_congr_left fun language inside => ?_
        have other : language ≠ file.language := fun same => absent (same ▸ inside)
        rw [if_neg other]
      rw [if_pos rfl, if_pos (List.mem_cons_self ..)]
      simp only [List.map_cons, if_true, others]
      cases (tally file.language).add file <;> rfl
    · rw [if_neg same, ih nodup]
      have known : file.language ∈ language :: rest ↔ file.language ∈ rest := by
        simp [Ne.symm same]
      simp only [known, List.map_cons, if_neg same]
      split
      · cases (tally file.language).add file <;> rfl
      · cases Tally.add {} file <;> rfl

def tallies (files : Inventory) : List (Text × Tally) :=
  files.languages.map fun language => (language, Tally.of (files.inLanguage language))

theorem addFile_tallies (done : Inventory) (file : SourceFile) :
    addFile file (tallies done) = file.isCovered.map fun _ => tallies (done ++ [file]) := by
  rw [tallies, addFile_map file done.nodup_languages, tallies]
  by_cases known : file.language ∈ done.languages
  · rw [if_pos known, Tally.add_of, Inventory.languages_concat_of_mem known]
    simp only [Inventory.inLanguage_concat]
    cases file.isCovered with
    | error e => rfl
    | ok covered =>
      refine congrArg Except.ok (List.map_congr_left fun language _ => ?_)
      by_cases same : language = file.language
      · simp [same]
      · simp [same]
  · rw [if_neg known, Inventory.languages_concat_of_notMem known]
    have first : Tally.add {} file = file.isCovered.map fun _ => Tally.of [file] :=
      Tally.add_of [] file
    rw [first]
    cases file.isCovered with
    | error e => rfl
    | ok covered =>
      refine congrArg Except.ok ?_
      rw [List.map_append, List.map_singleton, Inventory.inLanguage_concat, if_pos rfl,
        Inventory.inLanguage_eq_nil known]
      refine congrArg (· ++ _) (List.map_congr_left fun language inside => ?_)
      have other : language ≠ file.language := fun same => known (same ▸ inside)
      rw [Inventory.inLanguage_concat, if_neg other]

theorem foldlM_addFile_eq_ok_iff {done files : Inventory} {last : List (Text × Tally)} :
    files.foldlM (fun tallies file => addFile file tallies) (tallies done) = .ok last ↔
      (∀ file ∈ files, ∃ covered, file.isCovered = .ok covered) ∧
        tallies (done ++ files) = last := by
  induction files generalizing done with
  | nil => simp [pure, Except.pure]
  | cons file rest ih =>
    rw [List.foldlM_cons, addFile_tallies, List.forall_mem_cons]
    cases file.isCovered with
    | error e => simp [Except.map, Bind.bind, Except.bind]
    | ok covered =>
      change rest.foldlM _ (tallies (done ++ [file])) = _ ↔ _
      rw [ih, List.append_assoc, List.singleton_append]
      simp

theorem mapM_eq_ok_iff {ε α β : Type} {f : α → Except ε β} {items : List α} {results : List β} :
    items.mapM f = .ok results ↔
      List.Forall₂ (fun item result => f item = .ok result) items results := by
  induction items generalizing results with
  | nil => rw [List.mapM_nil, pure_eq_ok_iff, List.forall₂_nil_left_iff, eq_comm]
  | cons item rest ih =>
    simp only [List.mapM_cons, do_eq_ok_iff, pure_eq_ok_iff, ih, List.forall₂_cons_left_iff]
    constructor
    · rintro ⟨first, made, others, all, rfl⟩
      exact ⟨first, others, made, all, rfl⟩
    · rintro ⟨first, others, made, all, rfl⟩
      exact ⟨first, made, others, all, rfl⟩

/-- A summary has the languages in order, and for each the coverage of its files; there is
one exactly if all that is needed for it can be computed. -/
theorem Inventory.summarize_eq_ok_iff {files : Inventory} {report : Report} :
    files.summarize = .ok report ↔
      (∀ file ∈ files, ∃ covered, file.isCovered = .ok covered) ∧
        List.Forall₂ (fun language entry => entry.1 = language ∧
          (Tally.of (files.inLanguage language)).coverage = .ok entry.2)
        files.languages report := by
  change (Except.bind (List.foldlM _ (tallies []) files) _) = _ ↔ _
  simp only [bind_eq_ok_iff, foldlM_addFile_eq_ok_iff, List.nil_append, mapM_eq_ok_iff]
  have entry (language : Text) (tally : Tally) (made : Text × LanguageCoverage) :
      (do return (language, ← tally.coverage) : Except ScoreError _) = .ok made ↔
        made.1 = language ∧ tally.coverage = .ok made.2 := by
    simp only [do_eq_ok_iff, pure_eq_ok_iff]
    constructor
    · rintro ⟨coverage, known, rfl⟩
      exact ⟨rfl, known⟩
    · rintro ⟨rfl, known⟩
      exact ⟨made.2, known, rfl⟩
  constructor
  · rintro ⟨_, ⟨computed, rfl⟩, made⟩
    rw [tallies, List.forall₂_map_left_iff] at made
    exact ⟨computed, made.imp fun language made => (entry ..).mp⟩
  · rintro ⟨computed, made⟩
    refine ⟨_, ⟨computed, rfl⟩, ?_⟩
    rw [tallies, List.forall₂_map_left_iff]
    exact made.imp fun language made => (entry ..).mpr

theorem Inventory.map_fst_of_summarize {files : Inventory} {report : Report}
    (h : files.summarize = .ok report) : report.map Prod.fst = files.languages := by
  obtain ⟨-, entries⟩ := summarize_eq_ok_iff.mp h
  have names : List.Forall₂ Eq files.languages (report.map Prod.fst) :=
    List.forall₂_map_right_iff.mpr (entries.imp fun language entry made => made.1.symm)
  rw [List.forall₂_eq_eq_eq] at names
  exact names.symm

theorem Inventory.coverage_of_summarize {files : Inventory} {report : Report}
    (h : files.summarize = .ok report) {language : Text} {coverage : LanguageCoverage}
    (inside : (language, coverage) ∈ report) :
    language ∈ files.languages ∧
      (Tally.of (files.inLanguage language)).coverage = .ok coverage := by
  obtain ⟨-, entries⟩ := summarize_eq_ok_iff.mp h
  obtain ⟨n, bound, found⟩ := List.mem_iff_getElem.mp inside
  have within : n < files.languages.length := entries.length_eq ▸ bound
  have made := entries.get within bound
  simp only [List.get_eq_getElem, found] at made
  obtain ⟨rfl, made⟩ := made
  exact ⟨List.getElem_mem within, made⟩

end IndexCoverage
