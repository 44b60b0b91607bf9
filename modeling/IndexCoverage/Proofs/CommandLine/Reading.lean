import IndexCoverage.CommandLine.Arguments

/-! The words that ask for coverage, and what is read from them. A word without a dash in front is
a value or the path wherever it stands. -/

namespace IndexCoverage

def Request.given (path : Text) (commit? buildDataDir? : Option Text) : Request where
  path := path
  commit := commit?.getD []
  buildDataDir := buildDataDir?.getD []

namespace CommandLine

def IsValue (word : Text) : Prop := word.head? ≠ some dash

instance (word : Text) : Decidable (IsValue word) := inferInstanceAs (Decidable (_ ≠ _))

def setting (spelling : Text) : Option Text → List Text
  | none => []
  | some value => [spelling, value]

def asking (path : Text) (commit? buildDataDir? : Option Text) : List Text :=
  "coverage" :: path :: (setting "--commit" commit? ++ setting "--build-data-dir" buildDataDir?)

theorem wordsOf_cons {table : Table} {word : Text} {found : Word} (rest : List Text)
    (single : word ≠ [dash, dash]) (known : classify table word = some found) :
    wordsOf table (word :: rest) = (wordsOf table rest).map ((word, found) :: ·) := by
  rw [wordsOf, if_neg single, known]
  cases wordsOf table rest <;> rfl

theorem wordsOf_value {table : Table} {word : Text} (rest : List Text) (value : IsValue word) :
    wordsOf table (word :: rest) = (wordsOf table rest).map ((word, .plain) :: ·) := by
  refine wordsOf_cons rest ?_ (if_pos (.inl value))
  rintro rfl
  exact value rfl

def marks (spelling : Text) (word : Word) : Option Text → List (Text × Word)
  | none => []
  | some value => [(spelling, word), (value, .plain)]

theorem wordsOf_setting {table : Table} {spelling : Text} {found : Word} {value? : Option Text}
    (rest : List Text) (single : spelling ≠ [dash, dash])
    (known : classify table spelling = some found) (value : ∀ value ∈ value?, IsValue value) :
    wordsOf table (setting spelling value? ++ rest) =
      (wordsOf table rest).map (marks spelling found value? ++ ·) := by
  cases value? with
  | none =>
    rw [setting, List.nil_append]
    cases wordsOf table rest <;> rfl
  | some text =>
    rw [setting, List.cons_append, List.singleton_append, wordsOf_cons _ single known,
      wordsOf_value rest (value text rfl), Option.map_map]
    rfl

theorem map_fst_marks (spelling : Text) (word : Word) (value? : Option Text) :
    (marks spelling word value?).map Prod.fst = setting spelling value? := by
  cases value? <;> rfl

variable {path : Text} {commit? buildDataDir? : Option Text}

theorem wordsOf_asking {table : Table} {commit buildDataDir : Word} (value : IsValue path)
    (commitKnown : classify table "--commit" = some commit)
    (buildDataDirKnown : classify table "--build-data-dir" = some buildDataDir)
    (commitValue : ∀ value ∈ commit?, IsValue value)
    (buildDataDirValue : ∀ value ∈ buildDataDir?, IsValue value) :
    wordsOf table
        (path :: (setting "--commit" commit? ++ setting "--build-data-dir" buildDataDir?)) =
      some ((path, .plain) :: (marks "--commit" commit commit? ++
        marks "--build-data-dir" buildDataDir buildDataDir?)) := by
  have last := wordsOf_setting [] (by decide) buildDataDirKnown buildDataDirValue
  rw [List.append_nil] at last
  rw [wordsOf_value _ value, wordsOf_setting _ (by decide) commitKnown commitValue, last, wordsOf,
    Option.map_some, Option.map_some, Option.map_some, List.append_nil]

theorem readCommand_asking :
    readCommand coverageTable none .free false {} ((path, .plain) ::
        (marks "--commit" (.flag .commit .nothing) commit? ++
          marks "--build-data-dir" (.flag .buildDataDir .nothing) buildDataDir?)) =
      .ok ({ path, commit := commit?.getD [], buildDataDir := buildDataDir?.getD [] }, false) := by
  cases commit? <;> cases buildDataDir? <;> rfl

theorem readNamed_asking (value : IsValue path) (commitValue : ∀ value ∈ commit?, IsValue value)
    (buildDataDirValue : ∀ value ∈ buildDataDir?, IsValue value) :
    readNamed "coverage" false {}
        (path :: (setting "--commit" commit? ++ setting "--build-data-dir" buildDataDir?)) =
      .ok ⟨false, none, .coverage (.given path commit? buildDataDir?)⟩ := by
  have commitKnown : classify coverageTable "--commit" = some (.flag .commit .nothing) := by decide
  have buildDataDirKnown : classify coverageTable "--build-data-dir" =
      some (.flag .buildDataDir .nothing) := by decide
  have words := wordsOf_asking value commitKnown buildDataDirKnown commitValue buildDataDirValue
  rw [readNamed, if_pos rfl]
  dsimp only
  rw [words]
  dsimp only
  rw [readCommand_asking]
  rfl

theorem read_asking (value : IsValue path) (commitValue : ∀ value ∈ commit?, IsValue value)
    (buildDataDirValue : ∀ value ∈ buildDataDir?, IsValue value) :
    Arguments.read (asking path commit? buildDataDir?) =
      .ok ⟨false, none, .coverage (.given path commit? buildDataDir?)⟩ := by
  have name : IsValue "coverage" := by decide
  have commitUnknown : classify topTable "--commit" = some .unknown := by decide
  have buildDataDirUnknown : classify topTable "--build-data-dir" = some .unknown := by decide
  rw [Arguments.read, asking, wordsOf_value _ name, wordsOf_asking value commitUnknown
    buildDataDirUnknown commitValue buildDataDirValue, Option.map_some]
  dsimp only
  rw [readTop, List.map_cons, List.map_append, map_fst_marks, map_fst_marks]
  exact readNamed_asking value commitValue buildDataDirValue

end CommandLine
end IndexCoverage
