import IndexCoverage.Inventory
import IndexCoverage.Proofs.Log.Outcome

/-! Other contents in the files of a disk. Directories and links stay, so that every path
leads where it led and the walk of a tree lists the same files. An inventory changes only
with the bytes of the source files that it reads. -/

namespace IndexCoverage
namespace Node

mutual

/-- The node with what `f` makes of each file below it, given the file's place. -/
def edit (f : List Text → Bytes → Bytes) (place : List Text) : Node → Node
  | file content => file (f place content)
  | dir entries => dir (editIn f place entries)
  | link target => link target

def editIn (f : List Text → Bytes → Bytes) (place : List Text) :
    List (Text × Node) → List (Text × Node)
  | [] => []
  | (name, node) :: rest => (name, edit f (place ++ [name]) node) :: editIn f place rest

end

variable (f : List Text → Bytes → Bytes)

theorem lookup_editIn (place : List Text) (name : Text) (entries : List (Text × Node)) :
    (editIn f place entries).lookup name =
      (entries.lookup name).map (edit f (place ++ [name])) := by
  induction entries with
  | nil => rfl
  | cons entry rest ih =>
    obtain ⟨other, node⟩ := entry
    rw [editIn, List.lookup_cons, List.lookup_cons, ih]
    by_cases same : name = other
    · subst same
      simp
    · simp [beq_eq_false_iff_ne.mpr same]

theorem child?_edit (place : List Text) (name : Text) (node : Node) :
    (node.edit f place).child? name = (node.child? name).map (edit f (place ++ [name])) := by
  cases node with
  | dir entries => rw [edit, child?, child?, lookup_editIn]
  | file content => rfl
  | link target => rfl

theorem at?_edit (place names : List Text) (node : Node) :
    (node.edit f place).at? names = (node.at? names).map (edit f (place ++ names)) := by
  induction names generalizing place node with
  | nil => simp [at?]
  | cons name rest ih =>
    rw [at?, at?, child?_edit]
    cases node.child? name with
    | none => rfl
    | some next => simp [ih]

theorem isDir_edit (place : List Text) (node : Node) :
    (node.edit f place matches .dir _) = (node matches .dir _) := by
  cases node <;> simp [edit]

end Node

namespace Disk

def edit (f : List Text → Bytes → Bytes) (disk : Disk) : Disk :=
  { disk with top := disk.top.edit f [] }

variable (f : List Text → Bytes → Bytes) (disk : Disk)

theorem at?_top_edit (place : List Text) :
    (disk.edit f).top.at? place = (disk.top.at? place).map (Node.edit f place) :=
  Node.at?_edit f [] place disk.top

@[simp] theorem rights_edit : (disk.edit f).rights = disk.rights := rfl

def editFound (found : List Text × Node) : List Text × Node :=
  (found.1, found.2.edit f found.1)

theorem follow_edit (last : Bool) (links : Nat) (place names : List Text) :
    (disk.edit f).follow last links place names =
      (disk.follow last links place names).map (editFound f) := by
  -- Each branch is taken for the shape of what is found, which editing keeps.
  fun_induction disk.follow last links place names with
  | case11 links place name rest entries here may counts down short node noLink found ih =>
    cases node with
    | link target => exact absurd rfl (noLink target)
    | file content | dir more =>
      rw [follow, at?_top_edit, here]
      simpa [Node.edit, may, counts, down, short, Node.lookup_editIn, found] using ih
  | case12 links place name rest node noDir here =>
    cases node with
    | dir entries => exact absurd rfl (noDir entries)
    | file content | link target =>
      rw [follow, at?_top_edit, here]
      rfl
  | _ =>
    rw [follow, at?_top_edit]
    simp_all [-List.lookup_eq_none_iff, Node.edit, Node.lookup_editIn, Except.map, editFound]

theorem startOf_edit (path : Path) : (disk.edit f).startOf path = disk.startOf path := rfl

theorem find_edit (path : Path) :
    (disk.edit f).find path = (disk.find path).map (editFound f) := by
  rw [find, find, startOf_edit, follow_edit]
  cases refused? path.text with
  | some e => rfl
  | none => cases disk.follow true maxLinks (disk.startOf path) path.parts <;> rfl

theorem read_edit (path : Path) :
    (disk.edit f).read path = (disk.find path).bind fun (place, node) =>
      if (disk.rights place).read then
        match node with
        | .file content => .ok (f place content)
        | _ => .error (.system ⟨.isDirectory, path.text⟩)
      else .error (.system ⟨.denied, path.text⟩) := by
  rw [read, find_edit]
  cases disk.find path with
  | error e => rfl
  | ok found =>
    obtain ⟨place, node⟩ := found
    simp only [Except.map, editFound, Bind.bind, Except.bind, rights_edit]
    by_cases may : (disk.rights place).read = true
    · cases node <;> simp only [may, if_true] <;> rfl
    · simp only [may]
      rfl

theorem holds_edit {test : Node → Bool}
    (keeps : ∀ place node, test (.edit f place node) = test node) (path : Path) :
    (disk.edit f).holds test path = disk.holds test path := by
  rw [holds, holds, find_edit]
  cases disk.find path with
  | error e => rfl
  | ok found => simp [Except.map, editFound, keeps]

theorem exists?_edit (path : Path) : (disk.edit f).exists? path = disk.exists? path :=
  holds_edit f disk (fun _ _ => rfl) path

theorem isDir_edit (path : Path) : (disk.edit f).isDir path = disk.isDir path :=
  holds_edit f disk (fun place node => Node.isDir_edit f place node) path

theorem linkAt?_edit (path : Path) : (disk.edit f).linkAt? path = disk.linkAt? path := by
  rw [linkAt?, linkAt?, startOf_edit, follow_edit]
  cases refused? path.text with
  | some e => rfl
  | none =>
    cases disk.follow false maxLinks (disk.startOf path) path.parts with
    | error e => rfl
    | ok found =>
      obtain ⟨place, node⟩ := found
      cases node <;> rfl

theorem wayFrom_edit (depth : Nat) (met : Met) (path : Path) (names : List Text) :
    (disk.edit f).wayFrom depth met path names = disk.wayFrom depth met path names := by
  fun_induction disk.wayFrom depth met path names with
  | case1 => rw [wayFrom]
  | _ =>
    rw [wayFrom]
    simp_all +zetaDelta [-List.lookup_eq_none_iff, linkAt?_edit]

theorem resolve_edit (path : Path) : (disk.edit f).resolve path = disk.resolve path := by
  have top (path : Path) : (disk.edit f).fromTop path = disk.fromTop path := rfl
  simp only [resolve, wayFrom_edit, top]
  cases path.parts.findSome? badName? with
  | some e => rfl
  | none =>
    dsimp only
    split
    · rfl
    · next text _ =>
      rw [find_edit]
      cases disk.find (disk.fromTop (Path.ofText text)) <;> rfl

theorem locate_edit (asked : Text) : (disk.edit f).locate asked = disk.locate asked := by
  have home : (disk.edit f).expandHome (Path.ofText asked) =
      disk.expandHome (Path.ofText asked) := rfl
  rw [locate, locate, home]
  cases disk.expandHome (Path.ofText asked) with
  | error e => rfl
  | ok path => exact resolve_edit f disk path

theorem leadsToDir_edit (place : List Text) :
    (disk.edit f).leadsToDir place = disk.leadsToDir place := by
  rw [leadsToDir, leadsToDir, isDir_edit]

theorem canList_edit : (disk.edit f).canList = disk.canList := by
  funext place
  rw [canList, canList, find_edit]
  cases disk.find (Path.ofPlace place) with
  | error e => rfl
  | ok found =>
    obtain ⟨there, node⟩ := found
    cases node <;> rfl

mutual

theorem stops_edit (lists : List Text → Bool) (depth : Nat) (place : List Text) (node : Node) :
    (disk.edit f).stops lists depth place (node.edit f place) =
      disk.stops lists depth place node := by
  cases node with
  | dir entries => rw [Node.edit, stops, stops, branches_edit]
  | file content => rfl
  | link target => rfl

theorem branches_edit (lists : List Text → Bool) (depth : Nat) (place : List Text)
    (entries : List (Text × Node)) :
    (disk.edit f).branches lists depth place (Node.editIn f place entries) =
      disk.branches lists depth place entries := by
  match entries with
  | [] => rfl
  | (name, .file content) :: rest =>
    rw [Node.editIn, Node.edit, branches, branches, branches_edit lists depth place rest]
  | (name, .link target) :: rest =>
    rw [Node.editIn, Node.edit, branches, branches, branches_edit lists depth place rest,
      leadsToDir_edit]
  | (name, .dir more) :: rest =>
    cases depth with
    | zero => rw [Node.editIn, Node.edit, branches, branches, branches_edit lists 0 place rest]
    | succ depth =>
      have below := stops_edit lists depth (place ++ [name]) (.dir more)
      rw [Node.edit] at below
      rw [Node.editIn, Node.edit, branches, branches, branches_edit lists (depth + 1) place rest,
        below]

end

theorem stops_top_edit (lists : List Text → Bool) (depth : Nat) (place : List Text) :
    (disk.edit f).stops lists depth place (((disk.edit f).top.at? place).getD default) =
      disk.stops lists depth place ((disk.top.at? place).getD default) := by
  rw [at?_top_edit]
  cases disk.top.at? place with
  | none => exact stops_edit f disk lists depth place (.dir [])
  | some node => exact stops_edit f disk lists depth place node

end Disk

namespace Inventory

def sourcePaths (disk : Disk) (depth : Nat) (root : Path) : List Path :=
  let stops := disk.stops disk.canList depth root.parts ((disk.top.at? root.parts).getD default)
  let files := stops.filter fun stop =>
    !stop.tooDeep && (Source.languageOf? (shownPath stop.names)).isSome
  files.map fun stop => Path.ofPlace (root.parts ++ stop.names)

/-- The source files of the tree at a path hold the same bytes on both disks. -/
def SameSources (disk other : Disk) (depth : Nat) (asked : Text) : Prop :=
  ∀ root, disk.locate asked = .ok root → ∀ path ∈ sourcePaths disk depth root,
    other.read path = disk.read path

theorem readFile_congr {disk other : Disk} {root names : List Text}
    (same : (Source.languageOf? (shownPath names)).isSome →
      other.read (Path.ofPlace (root ++ names)) = disk.read (Path.ofPlace (root ++ names))) :
    readFile other root names = readFile disk root names := by
  rw [readFile, readFile]
  cases tracked : Source.languageOf? (shownPath names) with
  | none => rfl
  | some language => rw [same (by simp [tracked])]

theorem readFiles_congr {disk other : Disk} {root : List Text} {stops : List Stop}
    (same : ∀ names, ⟨names, false⟩ ∈ stops → (Source.languageOf? (shownPath names)).isSome →
      other.read (Path.ofPlace (root ++ names)) = disk.read (Path.ofPlace (root ++ names))) :
    readFiles other root stops = readFiles disk root stops := by
  induction stops with
  | nil => rfl
  | cons stop rest ih =>
    obtain ⟨names, tooDeep⟩ := stop
    cases tooDeep with
    | true => rfl
    | false =>
      have first := readFile_congr (same names (List.mem_cons_self ..))
      have others := ih fun names inside => same names (List.mem_cons_of_mem _ inside)
      rw [readFiles, readFiles, first, others]

/-- The inventory of a tree depends on the contents of its source files only. -/
theorem build_edit (f : List Text → Bytes → Bytes) {disk : Disk} {depth : Nat} {asked : Text}
    (same : SameSources disk (disk.edit f) depth asked) :
    build (disk.edit f) depth asked = build disk depth asked := by
  rw [build, build, Disk.locate_edit]
  cases located : disk.locate asked with
  | error e => rfl
  | ok root =>
    have read : readFiles (disk.edit f) root.parts
          (disk.stops disk.canList depth root.parts ((disk.top.at? root.parts).getD default)) =
        readFiles disk root.parts
          (disk.stops disk.canList depth root.parts ((disk.top.at? root.parts).getD default)) := by
      refine readFiles_congr fun names inside tracked => same root located _ ?_
      exact List.mem_map_of_mem (List.mem_filter.mpr ⟨inside, by simpa using tracked⟩)
    simp only [mapError_ok, Logged.ofExcept_ok_bind, Disk.exists?_edit, Disk.isDir_edit,
      Disk.canList_edit, Disk.stops_top_edit, read]

end Inventory

end IndexCoverage
