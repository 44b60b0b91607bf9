import IndexCoverage.Store

/-! Paths of plain names on which there are no links. They lead where their names say,
however many links may be followed. -/

namespace IndexCoverage

namespace Node

theorem at?_append (node : Node) (place names : List Text) :
    node.at? (place ++ names) = (node.at? place).bind (at? names) := by
  induction place generalizing node with
  | nil => rfl
  | cons name rest ih =>
    rw [List.cons_append, at?, at?]
    cases node.child? name with
    | none => rfl
    | some next => exact ih next

/-- The node that names lead to from entry to entry, if no entry is a link. -/
def walk? : List Text → Node → Option Node
  | [], node => some node
  | name :: rest, node =>
    match node.child? name with
    | none | some (.link _) => none
    | some next => walk? rest next

theorem walk?_cons {name : Text} {rest : List Text} {node target : Node}
    (h : node.walk? (name :: rest) = some target) :
    ∃ entries next, node = .dir entries ∧ entries.lookup name = some next ∧
      (∀ text, next ≠ .link text) ∧ next.walk? rest = some target := by
  rw [walk?] at h
  cases node with
  | file content => simp [child?] at h
  | link text => simp [child?] at h
  | dir entries =>
    rw [child?] at h
    cases found : entries.lookup name with
    | none => simp [found] at h
    | some next =>
      refine ⟨entries, next, rfl, found, ?_, ?_⟩
      · rintro text rfl
        simp [found] at h
      · cases next with
        | link text => simp [found] at h
        | file content => simpa [found] using h
        | dir more => simpa [found] using h

theorem at?_of_walk {names : List Text} {node target : Node}
    (h : node.walk? names = some target) : node.at? names = some target := by
  induction names generalizing node with
  | nil => exact h
  | cons name rest ih =>
    obtain ⟨entries, next, rfl, found, -, walk⟩ := walk?_cons h
    rw [at?, child?, found]
    exact ih walk

end Node

namespace Disk

def isPlainName (name : Text) : Bool :=
  !name.isEmpty && name ≠ Path.dot && name ≠ Path.dotDot && !isTooLong name

theorem isPlainName_iff {name : Text} : isPlainName name = true ↔
    name.isEmpty = false ∧ name ≠ Path.dot ∧ name ≠ Path.dotDot ∧ isTooLong name = false := by
  simp [isPlainName, and_assoc]

def isOpen (disk : Disk) (place : List Text) : List Text → Bool
  | [] => true
  | name :: rest => (disk.rights place).enter && isOpen disk (place ++ [name]) rest

theorem isOpen_cons {disk : Disk} {place rest : List Text} {name : Text} :
    disk.isOpen place (name :: rest) = true ↔
      (disk.rights place).enter = true ∧ disk.isOpen (place ++ [name]) rest = true := by
  rw [isOpen, Bool.and_eq_true]

theorem isOpen_append {disk : Disk} {place names more : List Text} :
    disk.isOpen place (names ++ more) = true ↔
      disk.isOpen place names = true ∧ disk.isOpen (place ++ names) more = true := by
  induction names generalizing place with
  | nil => simp [isOpen]
  | cons name rest ih =>
    rw [List.cons_append, isOpen_cons, isOpen_cons, ih, and_assoc, ← List.append_cons]

theorem at?_entry {disk : Disk} {place : List Text} {entries : List (Text × Node)} {name : Text}
    {next : Node} (here : disk.top.at? place = some (.dir entries))
    (found : entries.lookup name = some next) : disk.top.at? (place ++ [name]) = some next := by
  rw [Node.at?_append, here]
  simp [Node.at?, Node.child?, found]

theorem follow_entry {disk : Disk} {last : Bool} {links : Nat} {place rest : List Text}
    {entries : List (Text × Node)} {name : Text} {next : Node}
    (here : disk.top.at? place = some (.dir entries)) (enter : (disk.rights place).enter = true)
    (plain : isPlainName name = true) (found : entries.lookup name = some next)
    (noLink : ∀ text, next ≠ .link text) :
    disk.follow last links place (name :: rest) =
      disk.follow last links (place ++ [name]) rest := by
  obtain ⟨nonempty, notDot, notDots, short⟩ := isPlainName_iff.mp plain
  rw [follow, here]
  simp only [enter, nonempty, notDot, notDots, short, found]
  cases next with
  | link text => exact absurd rfl (noLink text)
  | file content => simp
  | dir more => simp

theorem follow_link {disk : Disk} {links : Nat} {place rest : List Text}
    {entries : List (Text × Node)} {name target : Text}
    (here : disk.top.at? place = some (.dir entries)) (enter : (disk.rights place).enter = true)
    (plain : isPlainName name = true) (found : entries.lookup name = some (.link target)) :
    disk.follow true (links + 1) place (name :: rest) =
      disk.follow true links (startOfLink place target)
        (Text.splitOn Path.slash target ++ rest) := by
  obtain ⟨nonempty, notDot, notDots, short⟩ := isPlainName_iff.mp plain
  rw [follow, here]
  simp [enter, nonempty, notDot, notDots, short, found]

theorem follow_missing {disk : Disk} {last : Bool} {links : Nat} {place rest : List Text}
    {entries : List (Text × Node)} {name : Text}
    (here : disk.top.at? place = some (.dir entries)) (enter : (disk.rights place).enter = true)
    (plain : isPlainName name = true) (missing : entries.lookup name = none) :
    disk.follow last links place (name :: rest) = .error .notFound := by
  obtain ⟨nonempty, notDot, notDots, short⟩ := isPlainName_iff.mp plain
  rw [follow, here]
  simp [enter, nonempty, notDot, notDots, short, missing]

section Walking

variable {disk : Disk} {last : Bool} {links : Nat} {place names : List Text} {node target : Node}

theorem at?_walked (here : disk.top.at? place = some node)
    (walk : node.walk? names = some target) : disk.top.at? (place ++ names) = some target := by
  rw [Node.at?_append, here]
  exact Node.at?_of_walk walk

theorem follow_append (rest : List Text) (here : disk.top.at? place = some node)
    (enter : disk.isOpen place names = true) (plain : ∀ name ∈ names, isPlainName name = true)
    (walk : node.walk? names = some target) :
    disk.follow last links place (names ++ rest) =
      disk.follow last links (place ++ names) rest := by
  induction names generalizing place node with
  | nil => rw [List.nil_append, List.append_nil]
  | cons name names ih =>
    obtain ⟨entries, next, rfl, found, noLink, walked⟩ := Node.walk?_cons walk
    obtain ⟨first, others⟩ := isOpen_cons.mp enter
    have on := ih (at?_entry here found) others
      (fun other inside => plain other (List.mem_cons_of_mem _ inside)) walked
    rw [List.cons_append, follow_entry here first (plain name (List.mem_cons_self ..)) found noLink,
      on, List.append_assoc, List.singleton_append]

theorem follow_of_walk (here : disk.top.at? place = some node)
    (enter : disk.isOpen place names = true) (plain : ∀ name ∈ names, isPlainName name = true)
    (walk : node.walk? names = some target) :
    disk.follow last links place names = .ok (place ++ names, target) := by
  have on : disk.follow last links place (names ++ []) = _ := follow_append [] here enter plain walk
  rw [List.append_nil] at on
  rw [on, follow, at?_walked here walk]

theorem follow_of_missing {rest : List Text} {entries : List (Text × Node)} {name : Text}
    (here : disk.top.at? place = some node) (enter : disk.isOpen place (names ++ [name]) = true)
    (plain : ∀ name ∈ names, isPlainName name = true)
    (walk : node.walk? names = some (.dir entries)) (isPlain : isPlainName name = true)
    (missing : entries.lookup name = none) :
    disk.follow last links place (names ++ name :: rest) = .error .notFound := by
  obtain ⟨along, there⟩ := isOpen_append.mp enter
  rw [follow_append (name :: rest) here along plain walk]
  exact follow_missing (at?_walked here walk) (isOpen_cons.mp there).1 isPlain missing

end Walking

theorem find_of_follow {disk : Disk} {path : Path} {found : List Text × Node}
    (accepted : refused? path.text = none)
    (leads : disk.follow true maxLinks (disk.startOf path) path.parts = .ok found) :
    disk.find path = .ok found := by
  simp only [find, accepted, leads]

theorem find_of_follow_error {disk : Disk} {path : Path} {errno : Errno}
    (accepted : refused? path.text = none)
    (fails : disk.follow true maxLinks (disk.startOf path) path.parts = .error errno) :
    disk.find path = .error (.system ⟨errno, path.text⟩) := by
  simp only [find, accepted, fails]

theorem find_of_walk {disk : Disk} {path : Path} {node target : Node}
    (accepted : refused? path.text = none) (start : disk.top.at? (disk.startOf path) = some node)
    (enter : disk.isOpen (disk.startOf path) path.parts = true)
    (plain : ∀ name ∈ path.parts, isPlainName name = true)
    (walk : node.walk? path.parts = some target) :
    disk.find path = .ok (disk.startOf path ++ path.parts, target) :=
  find_of_follow accepted (follow_of_walk start enter plain walk)

theorem read_of_find {disk : Disk} {path : Path} {place : List Text} {content : Bytes}
    (found : disk.find path = .ok (place, .file content))
    (may : (disk.rights place).read = true) : disk.read path = .ok content := by
  rw [read, found]
  simp [Bind.bind, Except.bind, pure, Except.pure, may]

theorem read_of_walk {disk : Disk} {path : Path} {node : Node} {content : Bytes}
    (accepted : refused? path.text = none) (start : disk.top.at? (disk.startOf path) = some node)
    (enter : disk.isOpen (disk.startOf path) path.parts = true)
    (plain : ∀ name ∈ path.parts, isPlainName name = true)
    (walk : node.walk? path.parts = some (.file content))
    (may : (disk.rights (disk.startOf path ++ path.parts)).read = true) :
    disk.read path = .ok content :=
  read_of_find (find_of_walk accepted start enter plain walk) may

theorem find_of_missing {disk : Disk} {path : Path} {names rest : List Text} {node : Node}
    {entries : List (Text × Node)} {name : Text} (accepted : refused? path.text = none)
    (parts : path.parts = names ++ name :: rest)
    (start : disk.top.at? (disk.startOf path) = some node)
    (enter : disk.isOpen (disk.startOf path) (names ++ [name]) = true)
    (plain : ∀ name ∈ names, isPlainName name = true)
    (walk : node.walk? names = some (.dir entries)) (isPlain : isPlainName name = true)
    (missing : entries.lookup name = none) :
    disk.find path = .error (.system ⟨.notFound, path.text⟩) :=
  find_of_follow_error accepted (parts ▸ follow_of_missing start enter plain walk isPlain missing)

end Disk

theorem Store.read_of_walk {disk : Disk} {store : Store} {name : Text} {path : Path} {node : Node}
    {content : Bytes} (located : store.locate name = .ok path)
    (accepted : refused? path.text = none) (start : disk.top.at? (disk.startOf path) = some node)
    (enter : disk.isOpen (disk.startOf path) path.parts = true)
    (plain : ∀ name ∈ path.parts, Disk.isPlainName name = true)
    (walk : node.walk? path.parts = some (.file content))
    (may : (disk.rights (disk.startOf path ++ path.parts)).read = true) :
    store.read disk name = .ok content := by
  rw [read, located]
  simp only [Bind.bind, Except.bind, Disk.read_of_walk accepted start enter plain walk may]
  rfl

theorem Store.read_of_find_error {disk : Disk} {store : Store} {name : Text} {path : Path}
    {e : PathError} (located : store.locate name = .ok path) (h : disk.find path = .error e) :
    store.read disk name = .error (.path e) := by
  rw [read, located]
  simp only [Bind.bind, Except.bind, Disk.read, h]
  rfl

end IndexCoverage
