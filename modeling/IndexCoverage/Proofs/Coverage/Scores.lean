import IndexCoverage.Proofs.Coverage.Counting
import IndexCoverage.Proofs.Coverage.Steps
import IndexCoverage.Proofs.Coverage.Tallies
import IndexCoverage.Proofs.Inventory.Building
import IndexCoverage.Proofs.Number.Rounding
import Mathlib.Algebra.Order.BigOperators.Group.List

/-! The scores of a language as exact quotients. Each is a share or a density of what is
counted in the files of the language, or minus one where there is nothing to divide by,
and the report has the double that is nearest to it. -/

namespace IndexCoverage

open Binary64 (nearest?)

/-- The quotient of two counts, and minus one where the second of them is zero. -/
def exactScore (part all : Int) : ℚ := if all = 0 then -1 else part / all

theorem ratio_eq_ok_iff {x y : Int} (hx : 0 ≤ x) (hy : 0 < y) {z : Binary64} :
    ratio x y = .ok z ↔ nearest? ((x : ℚ) / y) = some z := by
  rw [ratio, ← Binary64.quotient?_eq_nearest? hx hy]
  generalize Binary64.quotient? x y = quotient
  cases quotient <;> simp [Option.elim]

theorem nearest?_neg_one : nearest? (-1) = some noScore := by
  have whole : nearest? (-1) = Binary64.quotient? (-1) 1 := by
    rw [nearest?]
    norm_num
  rw [whole]
  decide +kernel

variable {part all : Int}

theorem score_eq_ok_iff (hpart : 0 ≤ part) (hall : 0 ≤ all) {x : Binary64} :
    score part all = .ok x ↔ nearest? (exactScore part all) = some x := by
  by_cases zero : all = 0
  · rw [zero, score_zero, exactScore, if_pos rfl, nearest?_neg_one]
    simp
  · rw [score_of_ne_zero zero, exactScore, if_neg zero]
    exact ratio_eq_ok_iff hpart (by omega)

theorem exactScore_nonneg (hpart : 0 ≤ part) (hall : 0 ≤ all) (h : all ≠ 0) :
    0 ≤ exactScore part all := by
  rw [exactScore, if_neg h]
  positivity

theorem exactScore_eq_neg_one_iff (hpart : 0 ≤ part) (hall : 0 ≤ all) :
    exactScore part all = -1 ↔ all = 0 := by
  constructor
  · intro none
    by_contra h
    have nonneg := exactScore_nonneg hpart hall h
    rw [none] at nonneg
    norm_num at nonneg
  · intro zero
    rw [exactScore, if_pos zero]

theorem exactScore_le_one (hall : 0 ≤ all) (h : part ≤ all) : exactScore part all ≤ 1 := by
  rw [exactScore]
  split
  · norm_num
  · exact div_le_one_of_le₀ (by exact_mod_cast h) (by exact_mod_cast hall)

theorem exactScore_mono {more : Int} (hall : 0 ≤ all) (h : part ≤ more) :
    exactScore part all ≤ exactScore more all := by
  rw [exactScore, exactScore]
  split
  · rfl
  · exact div_le_div_of_nonneg_right (by exact_mod_cast h) (by exact_mod_cast hall)

theorem exactScore_eq_one_iff (h : all ≠ 0) : exactScore part all = 1 ↔ part = all := by
  have nonzero : (all : ℚ) ≠ 0 := by exact_mod_cast h
  rw [exactScore, if_neg h, div_eq_one_iff_eq nonzero]
  exact Int.cast_inj

theorem eq_noScore_iff (hpart : 0 ≤ part) (hall : 0 ≤ all) {x : Binary64}
    (h : score part all = .ok x) : x = noScore ↔ all = 0 := by
  constructor
  · rintro rfl
    by_contra nonzero
    have exact := (score_eq_ok_iff hpart hall).mp h
    have sign := (Binary64.nearest?_eq_some_iff (exactScore_nonneg hpart hall nonzero)).mp exact
    exact absurd sign.2 (by simp [noScore])
  · rintro rfl
    rw [score_zero] at h
    exact (Except.ok.inj h).symm

theorem GraphData.file_of_isValidIn {keys : List DefKey} {path : Text} {r : Reference}
    (h : isValidIn keys path r) : decide (r.file = path) := (Bool.and_eq_true_iff.mp h).1

structure SourceFile.Counted (data : GraphData) (file : SourceFile) : Prop where
  loc : 0 ≤ file.loc
  numRefs : file.numRefs = data.refs.countP (·.file = file.path)
  numRefsValid : file.numRefsValid = data.refs.countP (GraphData.isValidIn data.keys file.path)
  numDefs : file.numDefs = data.defs.countP (·.file = file.path)

namespace SourceFile

variable {data : GraphData} {file : SourceFile}

theorem Fresh.counted (fresh : file.Fresh) (data : GraphData) : (data.count file).Counted data where
  loc := fresh.loc
  numRefs := by simp [GraphData.count, GraphData.countIn, counting, fresh.numRefs]
  numRefsValid := by simp [GraphData.count, GraphData.countIn, counting, fresh.numRefsValid]
  numDefs := by simp [GraphData.count, GraphData.countIn, counting, fresh.numDefs]

theorem Counted.numRefs_nonneg (h : file.Counted data) : 0 ≤ file.numRefs := by
  rw [h.numRefs]
  exact Int.natCast_nonneg _

theorem Counted.numRefsValid_nonneg (h : file.Counted data) : 0 ≤ file.numRefsValid := by
  rw [h.numRefsValid]
  exact Int.natCast_nonneg _

theorem Counted.numDefs_nonneg (h : file.Counted data) : 0 ≤ file.numDefs := by
  rw [h.numDefs]
  exact Int.natCast_nonneg _

theorem Counted.numDefs_add_numRefsValid_nonneg (h : file.Counted data) :
    0 ≤ file.numDefs + file.numRefsValid :=
  add_nonneg h.numDefs_nonneg h.numRefsValid_nonneg

theorem Counted.numRefsValid_le (h : file.Counted data) : file.numRefsValid ≤ file.numRefs := by
  rw [h.numRefs, h.numRefsValid]
  exact Int.ofNat_le.mpr (List.countP_mono_left fun r _ => GraphData.file_of_isValidIn)

end SourceFile

theorem counted_foldInto {files : Inventory} (fresh : ∀ file ∈ files, file.Fresh)
    (data : GraphData) : ∀ file ∈ data.foldInto files, file.Counted data := by
  rw [GraphData.foldInto_eq_map, List.forall_mem_map]
  exact fun file inside => (fresh file inside).counted data

theorem languages_foldInto (data : GraphData) (files : Inventory) :
    (data.foldInto files).languages = files.languages := by
  rw [GraphData.foldInto_eq_map, Inventory.languages, List.map_map]
  rfl

theorem inLanguage_foldInto (data : GraphData) (files : Inventory) (language : Text) :
    (data.foldInto files).inLanguage language = (files.inLanguage language).map data.count := by
  rw [GraphData.foldInto_eq_map, Inventory.inLanguage, List.filter_map]
  rfl

def GraphData.refsIn (data : GraphData) (own : Inventory) : List Reference :=
  data.refs.filter fun r => own.any (·.path = r.file)

namespace Inventory

def fileScore (own : Inventory) : ℚ :=
  (own.length - (own.filter (!·.covered)).length) / own.length

def refScore (own : Inventory) : ℚ :=
  exactScore (own.map SourceFile.numRefsValid).sum (own.map SourceFile.numRefs).sum

def tokDensity (own : Inventory) : ℚ :=
  exactScore ((own.map SourceFile.numDefs).sum + (own.map SourceFile.numRefs).sum)
    (own.map SourceFile.loc).sum

variable {own : Inventory}

theorem countP_eq_countP_iff {α : Type} {p q : α → Bool} {items : List α}
    (h : ∀ item, p item → q item) :
    items.countP p = items.countP q ↔ ∀ item ∈ items, q item → p item := by
  constructor
  · intro same item inside counts
    rw [List.countP_eq_length_filter, List.countP_eq_length_filter] at same
    have kept := (List.monotone_filter_right items h).eq_of_length same
    have there : item ∈ items.filter q := List.mem_filter.mpr ⟨inside, counts⟩
    rw [← kept] at there
    exact (List.mem_filter.mp there).2
  · exact fun all => List.countP_congr fun item inside => ⟨h item, all item inside⟩

theorem sum_eq_sum_iff {f g : SourceFile → Int} (h : ∀ file ∈ own, f file ≤ g file) :
    (own.map f).sum = (own.map g).sum ↔ ∀ file ∈ own, f file = g file := by
  induction own with
  | nil => simp
  | cons file rest ih =>
    obtain ⟨first, others⟩ := List.forall_mem_cons.mp h
    have sums : (rest.map f).sum ≤ (rest.map g).sum := List.sum_le_sum others
    rw [List.forall_mem_cons, ← ih others, List.map_cons, List.map_cons, List.sum_cons,
      List.sum_cons]
    omega

theorem sum_nonneg {f : SourceFile → Int} (h : ∀ file ∈ own, 0 ≤ f file) :
    0 ≤ (own.map f).sum :=
  List.sum_nonneg (List.forall_mem_map.mpr h)

theorem fileScore_eq (h : own ≠ []) :
    own.fileScore = exactScore (own.countP SourceFile.covered) own.length := by
  have all : own.length = own.countP SourceFile.covered + (own.filter (!·.covered)).length := by
    rw [← List.countP_eq_length_filter]
    simpa using List.length_eq_countP_add_countP SourceFile.covered (l := own)
  have nonzero : (own.length : Int) ≠ 0 := by simpa using h
  have rest : (own.length : ℚ) - (own.filter (!·.covered)).length =
      own.countP SourceFile.covered := by
    rw [sub_eq_iff_eq_add]
    exact_mod_cast all
  rw [fileScore, exactScore, if_neg nonzero, rest]
  simp

variable {data : GraphData} (counted : ∀ file ∈ own, file.Counted data)

theorem refsIn_eq_nil_iff :
    data.refsIn own = [] ↔ ∀ file ∈ own, ∀ r ∈ data.refs, r.file ≠ file.path := by
  simp only [GraphData.refsIn, List.filter_eq_nil_iff, List.any_eq_true, decide_eq_true_eq,
    not_exists, not_and]
  exact ⟨fun h file inside r there same => h r there file inside same.symm,
    fun h r there file inside same => h file inside r there same.symm⟩

theorem forall_refsIn {valid : Reference → Prop} :
    (∀ r ∈ data.refsIn own, valid r) ↔
      ∀ file ∈ own, ∀ r ∈ data.refs, r.file = file.path → valid r := by
  simp only [GraphData.refsIn, List.mem_filter, List.any_eq_true, decide_eq_true_eq, and_imp,
    forall_exists_index]
  exact ⟨fun h file inside r there same => h r there file inside same.symm,
    fun h r there file inside same => h file inside r there same.symm⟩

include counted

theorem sum_loc_nonneg : 0 ≤ (own.map SourceFile.loc).sum :=
  sum_nonneg fun file inside => (counted file inside).loc

theorem sum_numDefs_nonneg : 0 ≤ (own.map SourceFile.numDefs).sum :=
  sum_nonneg fun file inside => (counted file inside).numDefs_nonneg

theorem sum_numRefs_nonneg : 0 ≤ (own.map SourceFile.numRefs).sum :=
  sum_nonneg fun file inside => (counted file inside).numRefs_nonneg

theorem sum_numRefsValid_nonneg : 0 ≤ (own.map SourceFile.numRefsValid).sum :=
  sum_nonneg fun file inside => (counted file inside).numRefsValid_nonneg

theorem sum_numRefsValid_le :
    (own.map SourceFile.numRefsValid).sum ≤ (own.map SourceFile.numRefs).sum :=
  List.sum_le_sum fun file inside => (counted file inside).numRefsValid_le

theorem sum_numRefs_eq_zero_iff :
    (own.map SourceFile.numRefs).sum = 0 ↔ data.refsIn own = [] := by
  have zeros : (own.map fun _ => 0).sum = (own.map SourceFile.numRefs).sum ↔
      ∀ file ∈ own, 0 = file.numRefs :=
    sum_eq_sum_iff fun file inside => (counted file inside).numRefs_nonneg
  rw [List.sum_map_zero, eq_comm] at zeros
  rw [zeros, refsIn_eq_nil_iff]
  refine forall₂_congr fun file inside => ?_
  rw [(counted file inside).numRefs, eq_comm, Int.natCast_eq_zero, List.countP_eq_zero]
  simp

theorem sum_numRefsValid_eq_iff :
    (own.map SourceFile.numRefsValid).sum = (own.map SourceFile.numRefs).sum ↔
      ∀ r ∈ data.refsIn own, r.isValid data.keys := by
  rw [sum_eq_sum_iff fun file inside => (counted file inside).numRefsValid_le, forall_refsIn]
  refine forall₂_congr fun file inside => ?_
  rw [(counted file inside).numRefsValid, (counted file inside).numRefs, Int.ofNat_inj,
    countP_eq_countP_iff fun r => GraphData.file_of_isValidIn]
  refine forall₂_congr fun r _ => ?_
  simp +contextual [GraphData.isValidIn]

end Inventory

/-- The coverage is that of these files, with scores that are meant where they are given. -/
structure LanguageCoverage.Sound (data : GraphData) (own : Inventory)
    (coverage : LanguageCoverage) : Prop where
  computed : ∀ file ∈ own, file.isCovered = .ok file.covered
  uncoveredFiles : coverage.uncoveredFiles = (own.filter (!·.covered)).map SourceFile.path
  fileScore : nearest? own.fileScore = some coverage.fileScore
  fileScore_nonneg : 0 ≤ own.fileScore
  fileScore_le_one : own.fileScore ≤ 1
  fileScore_eq_one_iff : own.fileScore = 1 ↔ coverage.uncoveredFiles = []
  fileScore_ne_noScore : coverage.fileScore ≠ noScore
  refScore : nearest? own.refScore = some coverage.refScore
  refScore_eq_noScore_iff : coverage.refScore = noScore ↔ data.refsIn own = []
  refScore_eq_neg_one_iff : own.refScore = -1 ↔ data.refsIn own = []
  refScore_nonneg : data.refsIn own ≠ [] → 0 ≤ own.refScore
  refScore_le_one : own.refScore ≤ 1
  refScore_eq_one_iff : data.refsIn own ≠ [] →
    (own.refScore = 1 ↔ ∀ r ∈ data.refsIn own, r.isValid data.keys)
  tokDensity : nearest? own.tokDensity = some coverage.tokDensity
  tokDensity_eq_noScore_iff : coverage.tokDensity = noScore ↔ (own.map SourceFile.loc).sum = 0
  tokDensity_eq_neg_one_iff : own.tokDensity = -1 ↔ (own.map SourceFile.loc).sum = 0
  tokDensity_nonneg : (own.map SourceFile.loc).sum ≠ 0 → 0 ≤ own.tokDensity

theorem sound_of_coverage {data : GraphData} {own : Inventory} {coverage : LanguageCoverage}
    (counted : ∀ file ∈ own, file.Counted data) (nonempty : own ≠ [])
    (computed : ∀ file ∈ own, ∃ covered, file.isCovered = .ok covered)
    (h : (Tally.of own).coverage = .ok coverage) : coverage.Sound data own := by
  obtain ⟨fileScore, refScore, tokDensity, uncovered⟩ := Tally.coverage_eq_ok_iff.mp h
  have files : (own.length : Int) ≠ 0 := by simpa using nonempty
  have noFiles := eq_noScore_iff (Int.natCast_nonneg _) (Int.natCast_nonneg _) fileScore
  have share := Inventory.fileScore_eq nonempty
  have refs := Inventory.sum_numRefs_eq_zero_iff counted
  have valid := Inventory.sum_numRefsValid_eq_iff counted
  have refsNonneg := Inventory.sum_numRefs_nonneg counted
  have validNonneg := Inventory.sum_numRefsValid_nonneg counted
  have tokensNonneg := add_nonneg (Inventory.sum_numDefs_nonneg counted) refsNonneg
  have locNonneg := Inventory.sum_loc_nonneg counted
  exact {
    computed := fun file inside => by
      obtain ⟨covered, known⟩ := computed file inside
      rw [known, SourceFile.covered_of_isCovered known]
    uncoveredFiles := uncovered.symm
    fileScore := by
      rw [share]
      exact (score_eq_ok_iff (Int.natCast_nonneg _) (Int.natCast_nonneg _)).mp fileScore
    fileScore_nonneg := by
      rw [share]
      exact exactScore_nonneg (Int.natCast_nonneg _) (Int.natCast_nonneg _) files
    fileScore_le_one := by
      rw [share]
      exact exactScore_le_one (Int.natCast_nonneg _) (Int.ofNat_le.mpr List.countP_le_length)
    fileScore_eq_one_iff := by
      rw [share, exactScore_eq_one_iff files, ← uncovered, Int.ofNat_inj, List.countP_eq_length]
      simp [Tally.of]
    fileScore_ne_noScore := fun same => files (noFiles.mp same)
    refScore := (score_eq_ok_iff validNonneg refsNonneg).mp refScore
    refScore_eq_noScore_iff := (eq_noScore_iff validNonneg refsNonneg refScore).trans refs
    refScore_eq_neg_one_iff := (exactScore_eq_neg_one_iff validNonneg refsNonneg).trans refs
    refScore_nonneg := fun there => exactScore_nonneg validNonneg refsNonneg (mt refs.mp there)
    refScore_le_one := exactScore_le_one refsNonneg (Inventory.sum_numRefsValid_le counted)
    refScore_eq_one_iff := fun there => (exactScore_eq_one_iff (mt refs.mp there)).trans valid
    tokDensity := (score_eq_ok_iff tokensNonneg locNonneg).mp tokDensity
    tokDensity_eq_noScore_iff := eq_noScore_iff tokensNonneg locNonneg tokDensity
    tokDensity_eq_neg_one_iff := exactScore_eq_neg_one_iff tokensNonneg locNonneg
    tokDensity_nonneg := exactScore_nonneg tokensNonneg locNonneg }

theorem exists_score {part all : Int} (hpart : 0 ≤ part) (hall : 0 ≤ all)
    (small : exactScore part all ≤ Binary64.topPower) : ∃ x, score part all = .ok x := by
  by_cases zero : all = 0
  · exact ⟨_, by rw [zero, score_zero]⟩
  · obtain ⟨x, near⟩ := Binary64.exists_nearest? (exactScore_nonneg hpart hall zero) small
    exact ⟨x, (score_eq_ok_iff hpart hall).mpr near⟩

theorem one_le_topPower : (1 : ℚ) ≤ Binary64.topPower := by
  have whole : 1 ≤ Binary64.topPower := by decide +kernel
  exact_mod_cast whole

theorem exactScore_le {part all : Int} (hpart : 0 ≤ part) (hall : 0 ≤ all) :
    exactScore part all ≤ part := by
  rw [exactScore]
  split
  · have nonneg : (0 : ℚ) ≤ part := by exact_mod_cast hpart
    linarith
  · exact div_le_self (by exact_mod_cast hpart) (by exact_mod_cast (by omega : 1 ≤ all))

section Success

variable {data : GraphData} {own : Inventory}

theorem SourceFile.Counted.numDefs_add_le {file : SourceFile} (h : file.Counted data) :
    file.numDefs + file.numRefs ≤ (data.defs.length + data.refs.length : Nat) := by
  rw [h.numDefs, h.numRefs, ← Int.natCast_add]
  exact Int.ofNat_le.mpr (Nat.add_le_add List.countP_le_length List.countP_le_length)

theorem exists_isCovered {file : SourceFile} (counted : file.Counted data)
    (small : data.defs.length + data.refs.length ≤ Binary64.topPower) :
    ∃ covered, file.isCovered = .ok covered := by
  by_cases zero : file.loc = 0
  · exact ⟨false, by rw [SourceFile.isCovered, if_pos zero]⟩
  · have part := counted.numDefs_add_numRefsValid_nonneg
    have bound : file.numDefs + file.numRefsValid ≤ Binary64.topPower := by
      have valid := counted.numRefsValid_le
      have all := counted.numDefs_add_le
      omega
    obtain ⟨x, made⟩ := exists_score part counted.loc
      ((exactScore_le part counted.loc).trans (by exact_mod_cast bound))
    rw [score_of_ne_zero zero] at made
    exact ⟨_, by rw [SourceFile.isCovered, if_neg zero, made]; rfl⟩

theorem exists_coverage (counted : ∀ file ∈ own, file.Counted data)
    (small : own.length * (data.defs.length + data.refs.length) ≤ Binary64.topPower) :
    ∃ coverage, (Tally.of own).coverage = .ok coverage := by
  have refsNonneg := Inventory.sum_numRefs_nonneg counted
  have files : exactScore (own.countP SourceFile.covered) own.length ≤ 1 :=
    exactScore_le_one (Int.natCast_nonneg _) (Int.ofNat_le.mpr List.countP_le_length)
  have refs :
      exactScore (own.map SourceFile.numRefsValid).sum (own.map SourceFile.numRefs).sum ≤ 1 :=
    exactScore_le_one refsNonneg (Inventory.sum_numRefsValid_le counted)
  have tokens := add_nonneg (Inventory.sum_numDefs_nonneg counted) refsNonneg
  have locNonneg := Inventory.sum_loc_nonneg counted
  have bound : (own.map SourceFile.numDefs).sum + (own.map SourceFile.numRefs).sum ≤
      Binary64.topPower := by
    have each : ∀ count ∈ own.map fun file => file.numDefs + file.numRefs,
        count ≤ ((data.defs.length + data.refs.length : Nat) : Int) :=
      List.forall_mem_map.mpr fun file inside => (counted file inside).numDefs_add_le
    have sum := List.sum_le_card_nsmul _ _ each
    rw [List.sum_map_add, List.length_map, nsmul_eq_mul] at sum
    exact sum.trans (by exact_mod_cast small)
  obtain ⟨fileScore, first⟩ := exists_score (Int.natCast_nonneg _) (Int.natCast_nonneg _)
    (files.trans one_le_topPower)
  obtain ⟨refScore, second⟩ := exists_score (Inventory.sum_numRefsValid_nonneg counted) refsNonneg
    (refs.trans one_le_topPower)
  obtain ⟨tokDensity, third⟩ := exists_score tokens locNonneg
    ((exactScore_le tokens locNonneg).trans (by exact_mod_cast bound))
  exact ⟨⟨fileScore, refScore, tokDensity, (Tally.of own).uncoveredFiles⟩,
    Tally.coverage_eq_ok_iff.mpr ⟨first, second, third, rfl⟩⟩

theorem exists_summarize {files : Inventory} (counted : ∀ file ∈ files, file.Counted data)
    (small : files.length * (data.defs.length + data.refs.length) ≤ Binary64.topPower) :
    ∃ report, files.summarize = .ok report := by
  have each (language : Text) :
      ∃ coverage, (Tally.of (files.inLanguage language)).coverage = .ok coverage := by
    refine exists_coverage (Inventory.forall_inLanguage counted language) ?_
    exact (Nat.mul_le_mul_right _ (List.length_filter_le _ _)).trans small
  choose coverage made using each
  refine ⟨files.languages.map fun language => (language, coverage language),
    Inventory.summarize_eq_ok_iff.mpr ⟨fun file inside => ?_, ?_⟩⟩
  · refine exists_isCovered (counted file inside) (Nat.le_trans ?_ small)
    exact Nat.le_mul_of_pos_left _ (List.length_pos_of_mem inside)
  · rw [List.forall₂_map_right_iff, List.forall₂_same]
    exact fun language _ => ⟨rfl, made language⟩

end Success

theorem sound_of_summarize {data : GraphData} {files : Inventory} {report : Report}
    (counted : ∀ file ∈ files, file.Counted data) (made : files.summarize = .ok report)
    {language : Text} {coverage : LanguageCoverage} (inside : (language, coverage) ∈ report) :
    coverage.Sound data (files.inLanguage language) := by
  obtain ⟨known, scored⟩ := Inventory.coverage_of_summarize made inside
  have computed := (Inventory.summarize_eq_ok_iff.mp made).1
  exact sound_of_coverage (Inventory.forall_inLanguage counted language)
    (Inventory.inLanguage_ne_nil known) (Inventory.forall_inLanguage computed language) scored

/-- What is counted after folding, and the scores and lists of a summary, fit together. There
is a summary unless there are so many definitions and references that no double holds it. -/
theorem summarize_sound {disk : Disk} {depth : Nat} {asked : Text} {log : Log} {files : Inventory}
    (built : Logged.outcome (Inventory.build disk depth asked) log = .ok files) (data : GraphData) :
    (∀ file ∈ data.foldInto files,
      0 ≤ file.numRefsValid ∧ file.numRefsValid ≤ file.numRefs ∧ 0 ≤ file.numDefs) ∧
    (files.length * (data.defs.length + data.refs.length) ≤ Binary64.topPower →
      ∃ report, (data.foldInto files).summarize = .ok report) ∧
    ∀ report, (data.foldInto files).summarize = .ok report →
      (report.map Prod.fst).Nodup ∧
      (∀ language, language ∈ report.map Prod.fst ↔ ∃ file ∈ files, file.language = language) ∧
      ∀ language coverage, (language, coverage) ∈ report →
        coverage.Sound data ((data.foldInto files).inLanguage language) := by
  have counted := counted_foldInto (Inventory.fresh_build built) data
  refine ⟨fun file inside => ?_, fun small => ?_, fun report made => ⟨?_, fun language => ?_, ?_⟩⟩
  · have here := counted file inside
    exact ⟨here.numRefsValid_nonneg, here.numRefsValid_le, here.numDefs_nonneg⟩
  · refine exists_summarize counted ?_
    rwa [GraphData.foldInto_eq_map, List.length_map]
  · rw [Inventory.map_fst_of_summarize made]
    exact Inventory.nodup_languages _
  · rw [Inventory.map_fst_of_summarize made, languages_foldInto, Inventory.mem_languages]
  · exact fun language coverage inside => sound_of_summarize counted made inside

def scoredDisk : Disk where
  top := .dir [("f.go", .file (Text.toUtf8 "f\n")), ("empty.go", .file []), ("empty.py", .file [])]
  workDir := []
  home := "/"

def scoredFiles : Inventory :=
  [{ path := "empty.go", language := "Go", loc := 0 },
    { path := "empty.py", language := "Python", loc := 0 },
    { path := "f.go", language := "Go", loc := 1 }]

def scoredData : GraphData :=
  ⟨[⟨[], "go", "u", "f"⟩],
    [⟨[⟨[], "go", "u", "f", [], [], "f.go", 0, 0⟩],
      [⟨[], "go", "u", "f", [], [], [], "f.go", 0, 0⟩,
        ⟨[], "go", "u", "g", [], [], [], "f.go", 0, 0⟩]⟩]⟩

def scoredReport : Report :=
  [("Go", ⟨.ofQuotient false 1 2, .ofQuotient false 1 2, .ofQuotient false 3 1, ["empty.go"]⟩),
    ("Python", ⟨.ofQuotient false 0 1, noScore, noScore, ["empty.py"]⟩)]

theorem build_scoredDisk :
    Logged.outcome (Inventory.build scoredDisk 970 "/") [] = .ok scoredFiles := by
  have top : scoredDisk.canList [] = true := Disk.LiesAt.canList ⟨rfl, rfl, by decide, rfl, rfl⟩
  have walk : scoredDisk.stops scoredDisk.canList 970 [] scoredDisk.top =
      Inventory.files [["empty.go"], ["empty.py"], ["f.go"]] := by
    have sorted : Disk.listed [("f.go", .file), ("empty.go", .file), ("empty.py", .file)] =
        Inventory.files [["empty.go"], ["empty.py"], ["f.go"]] := by
      rw [Disk.listed, Disk.byName_eq [("empty.go", .file), ("empty.py", .file), ("f.go", .file)]
        (by decide) (by decide)]
      rfl
    generalize scoredDisk.canList = lists at top ⊢
    simp only [scoredDisk, Disk.stops, Disk.branches, top, if_true, sorted]
  have counted := congrArg (List.filter Inventory.counts) walk
  have emptyGo : Inventory.FoundAt scoredDisk [] ["empty.go"]
      { path := "empty.go", language := "Go", loc := 0 } :=
    Inventory.foundAt_of_liesAt ⟨rfl, rfl, by decide, rfl, rfl⟩ rfl rfl (by decide +kernel)
  have emptyPy : Inventory.FoundAt scoredDisk [] ["empty.py"]
      { path := "empty.py", language := "Python", loc := 0 } :=
    Inventory.foundAt_of_liesAt ⟨rfl, rfl, by decide, rfl, rfl⟩ rfl rfl (by decide +kernel)
  have one : Inventory.FoundAt scoredDisk [] ["f.go"]
      { path := "f.go", language := "Go", loc := 1 } :=
    Inventory.foundAt_of_liesAt ⟨rfl, rfl, by decide, rfl, rfl⟩ rfl rfl (by decide +kernel)
  exact Inventory.outcome_build_of_found ⟨rfl, rfl, by decide, rfl, rfl⟩ rfl rfl counted
    (.cons emptyGo (.cons emptyPy (.cons one .nil))) []

theorem summarize_scored :
    Logged.outcome (Inventory.build scoredDisk 970 "/") [] = .ok scoredFiles ∧
      (scoredData.foldInto scoredFiles).summarize = .ok scoredReport ∧
      (scoredReport.map Prod.fst).Nodup ∧
      (∀ language, language ∈ scoredReport.map Prod.fst ↔
        ∃ file ∈ scoredFiles, file.language = language) ∧
      ∀ language coverage, (language, coverage) ∈ scoredReport →
        coverage.Sound scoredData ((scoredData.foldInto scoredFiles).inLanguage language) := by
  have made : (scoredData.foldInto scoredFiles).summarize = .ok scoredReport := by decide +kernel
  exact ⟨build_scoredDisk, made,
    (summarize_sound build_scoredDisk scoredData).2.2 scoredReport made⟩

end IndexCoverage
