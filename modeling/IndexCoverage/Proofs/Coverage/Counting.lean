import IndexCoverage.Proofs.Graph.Loading

/-! What folding comes to: on every tracked file the references, the valid ones and the
definitions of all artifacts that name it are counted, and nothing else changes. What names
another file plays no part, nor does the order of the artifacts or of the keys. -/

namespace IndexCoverage

def SourceFile.counting (refs valid defs : Nat) (file : SourceFile) : SourceFile :=
  { file with
    numRefs := file.numRefs + refs
    numRefsValid := file.numRefsValid + valid
    numDefs := file.numDefs + defs }

theorem SourceFile.counting_counting (a b c d e f : Nat) (file : SourceFile) :
    (file.counting a b c).counting d e f = file.counting (a + d) (b + e) (c + f) := by
  simp [counting, Int.add_assoc]

namespace GraphData

def isValidIn (keys : List DefKey) (path : Text) (r : Reference) : Bool :=
  r.file = path && r.isValid keys

def countIn (keys : List DefKey) (refs : List Reference) (defs : List Definition)
    (file : SourceFile) : SourceFile :=
  file.counting (refs.countP (·.file = file.path)) (refs.countP (isValidIn keys file.path))
    (defs.countP (·.file = file.path))

theorem countIn_nil (keys : List DefKey) : countIn keys [] [] = id := by
  funext file
  simp [countIn, SourceFile.counting]

theorem foldl_foldRef (keys : List DefKey) (refs : List Reference) (files : Inventory) :
    refs.foldl (foldRef keys) files = files.map (countIn keys refs []) := by
  induction refs generalizing files with
  | nil =>
    rw [countIn_nil, List.map_id]
    rfl
  | cons r rest ih =>
    rw [List.foldl_cons, ih, foldRef, Inventory.change, List.map_map]
    refine List.map_congr_left fun file _ => ?_
    simp only [Function.comp]
    by_cases here : file.path = r.file
    · cases valid : r.isValid keys <;>
        simp [countIn, SourceFile.counting, SourceFile.countRef, isValidIn, here, valid] <;>
        omega
    · have elsewhere : r.file ≠ file.path := fun same => here same.symm
      simp [countIn, isValidIn, here, elsewhere]

theorem foldl_foldDef (keys : List DefKey) (defs : List Definition) (files : Inventory) :
    defs.foldl foldDef files = files.map (countIn keys [] defs) := by
  induction defs generalizing files with
  | nil =>
    rw [countIn_nil, List.map_id]
    rfl
  | cons d rest ih =>
    rw [List.foldl_cons, ih, foldDef, Inventory.change, List.map_map]
    refine List.map_congr_left fun file _ => ?_
    simp only [Function.comp]
    by_cases here : file.path = d.file
    · simp [countIn, SourceFile.counting, SourceFile.countDef, here]
      omega
    · have elsewhere : d.file ≠ file.path := fun same => here same.symm
      simp [countIn, here, elsewhere]

theorem countIn_countIn (keys : List DefKey) (refs more : List Reference)
    (defs others : List Definition) (file : SourceFile) :
    countIn keys more others (countIn keys refs defs file) =
      countIn keys (refs ++ more) (defs ++ others) file := by
  rw [countIn, countIn, SourceFile.counting_counting, countIn]
  simp only [List.countP_append]
  rfl

theorem foldl_foldArtifact (keys : List DefKey) (artifacts : List Artifact) (files : Inventory) :
    artifacts.foldl (foldArtifact keys) files = files.map
      (countIn keys (artifacts.flatMap Artifact.refs) (artifacts.flatMap Artifact.defs)) := by
  induction artifacts generalizing files with
  | nil => exact foldl_foldDef keys [] files
  | cons artifact rest ih =>
    rw [List.foldl_cons, ih, foldArtifact, foldl_foldRef, foldl_foldDef keys, List.map_map,
      List.map_map]
    refine List.map_congr_left fun file _ => ?_
    simp [countIn_countIn]

def count (data : GraphData) : SourceFile → SourceFile := countIn data.keys data.refs data.defs

/-- Folding counts on each file what all artifacts together have in it. -/
theorem foldInto_eq_map (data : GraphData) (files : Inventory) :
    data.foldInto files = files.map data.count :=
  foldl_foldArtifact data.keys data.artifacts files

def inFiles (files : Inventory) (artifact : Artifact) : Artifact where
  defs := artifact.defs.filter fun d => files.any (·.path = d.file)
  refs := artifact.refs.filter fun r => files.any (·.path = r.file)

def within (files : Inventory) (data : GraphData) : GraphData :=
  { data with artifacts := data.artifacts.map (inFiles files) }

theorem refs_within (files : Inventory) (data : GraphData) :
    (data.within files).refs = data.refs.filter fun r => files.any (·.path = r.file) := by
  rw [refs, within, List.flatMap_map, refs, List.filter_flatMap]
  rfl

theorem defs_within (files : Inventory) (data : GraphData) :
    (data.within files).defs = data.defs.filter fun d => files.any (·.path = d.file) := by
  rw [defs, within, List.flatMap_map, defs, List.filter_flatMap]
  rfl

theorem countP_filter_of_imp {α : Type} {p keeps : α → Bool}
    (h : ∀ item, p item = true → keeps item = true) (items : List α) :
    (items.filter keeps).countP p = items.countP p := by
  rw [List.countP_filter]
  refine List.countP_congr fun item _ => ?_
  rw [Bool.and_eq_true, and_iff_left_iff_imp]
  exact h item

theorem count_within {files : Inventory} {file : SourceFile} (tracked : file ∈ files)
    (data : GraphData) : (data.within files).count file = data.count file := by
  have known {path : Text} (here : path = file.path) : files.any (·.path = path) = true :=
    List.any_eq_true.mpr ⟨file, tracked, by simp [here]⟩
  have valid (r : Reference) (h : isValidIn data.keys file.path r = true) :
      files.any (·.path = r.file) = true := by
    rw [isValidIn, Bool.and_eq_true, decide_eq_true_eq] at h
    exact known h.1
  rw [count, countIn, refs_within, defs_within, count, countIn,
    countP_filter_of_imp fun r here => known (of_decide_eq_true here),
    countP_filter_of_imp fun d here => known (of_decide_eq_true here)]
  exact congrArg (file.counting _ · _) (countP_filter_of_imp valid data.refs)

/-- The file has the same path, language and lines of code as before, and higher counts: by the
references, the valid references and the definitions in it. -/
structure Raises (data : GraphData) (before after : SourceFile) : Prop where
  path : after.path = before.path
  language : after.language = before.language
  loc : after.loc = before.loc
  numRefs : after.numRefs = before.numRefs + data.refs.countP (·.file = before.path)
  numRefsValid : after.numRefsValid = before.numRefsValid +
    data.refs.countP fun r => r.file = before.path && r.isValid data.keys
  numDefs : after.numDefs = before.numDefs + data.defs.countP (·.file = before.path)

theorem raises_count (data : GraphData) (file : SourceFile) : data.Raises file (data.count file) :=
  ⟨rfl, rfl, rfl, rfl, rfl, rfl⟩

theorem map_path_foldInto (data : GraphData) (files : Inventory) :
    (data.foldInto files).map SourceFile.path = files.map SourceFile.path := by
  rw [foldInto_eq_map, List.map_map]
  rfl

/-- Folding raises the counts of each file by what all artifacts have in it. The files stay in
their order, and what artifacts have in other files plays no part; the data is only read. -/
theorem foldInto_raises (data : GraphData) (files : Inventory) :
    (data.foldInto files).map SourceFile.path = files.map SourceFile.path ∧
      List.Forall₂ data.Raises files (data.foldInto files) ∧
      (data.within files).foldInto files = data.foldInto files := by
  refine ⟨data.map_path_foldInto files, ?counts, ?elsewhere⟩
  case counts =>
    rw [foldInto_eq_map, List.forall₂_map_right_iff, List.forall₂_same]
    exact fun file _ => data.raises_count file
  case elsewhere =>
    rw [foldInto_eq_map, foldInto_eq_map]
    exact List.map_congr_left fun file tracked => count_within tracked data

/-- The same keys are known, and the same references and definitions are there, in whatever
order and in whatever artifacts. -/
structure SameContent (data other : GraphData) : Prop where
  keys : ∀ key, key ∈ data.keys ↔ key ∈ other.keys
  refs : data.refs.Perm other.refs
  defs : data.defs.Perm other.defs

theorem SameContent.isValid {data other : GraphData} (h : data.SameContent other)
    (r : Reference) : r.isValid data.keys = r.isValid other.keys := by
  have known : data.keys.contains { r.key with repo := [] } =
      other.keys.contains { r.key with repo := [] } := by
    rw [Bool.eq_iff_iff, List.contains_iff_mem, List.contains_iff_mem]
    exact h.keys _
  rw [Reference.isValid, known, Reference.isValid]

theorem SameContent.foldInto {data other : GraphData} (h : data.SameContent other)
    (files : Inventory) : data.foldInto files = other.foldInto files := by
  rw [foldInto_eq_map, foldInto_eq_map]
  refine List.map_congr_left fun file _ => ?_
  have valid : isValidIn data.keys file.path = isValidIn other.keys file.path := by
    funext r
    rw [isValidIn, h.isValid, isValidIn]
  rw [count, count, countIn, countIn, valid, h.refs.countP_eq, h.refs.countP_eq,
    h.defs.countP_eq]

/-- The same keys are known and the same artifacts are there, in whatever order. -/
structure Alike (data other : GraphData) : Prop where
  keys : ∀ key, key ∈ data.keys ↔ key ∈ other.keys
  artifacts : data.artifacts.Perm other.artifacts

theorem Alike.sameContent {data other : GraphData} (h : data.Alike other) :
    data.SameContent other where
  keys := h.keys
  refs := h.artifacts.flatMap_right Artifact.refs
  defs := h.artifacts.flatMap_right Artifact.defs

theorem Alike.foldInto {data other : GraphData} (h : data.Alike other) (files : Inventory) :
    data.foldInto files = other.foldInto files :=
  h.sameContent.foldInto files

end GraphData
end IndexCoverage
