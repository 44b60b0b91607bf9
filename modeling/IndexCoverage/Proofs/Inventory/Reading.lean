import IndexCoverage.Proofs.Disk.Names
import IndexCoverage.Proofs.Inventory.Building
import IndexCoverage.Proofs.Text.Cutting
import Mathlib.Data.List.Sort
import Mathlib.Tactic.Set

/-! What an inventory is read from: the visible files in a tracked language, each once, in the order
of the walk. Whether a file is one of them depends on what lies at the places on the way to it, and
not on the order in which directories have their entries; the same goes for the order. -/

namespace IndexCoverage

theorem Source.baseName_append {front name : Text} (whole : Path.slash ∉ name) :
    baseName (front ++ [Path.slash] ++ name) = name := by
  rw [List.append_assoc, List.singleton_append]
  exact congrArg Prod.snd (Text.cutLast_append_cons front whole)

theorem Source.baseName_of_notMem {name : Text} (whole : Path.slash ∉ name) :
    baseName name = name :=
  congrArg Prod.snd (Text.cutLast_of_notMem whole)

theorem Inventory.shownPath_concat {dirs : List Text} (more : dirs ≠ []) (name : Text) :
    shownPath (dirs ++ [name]) = shownPath dirs ++ [Path.slash] ++ name := by
  induction dirs with
  | nil => exact absurd rfl more
  | cons dir rest ih =>
    cases rest with
    | nil =>
      have pair : shownPath ([dir] ++ [name]) = dir ++ [Path.slash] ++ shownPath [name] :=
        shownPath_cons (by simp)
      rw [pair, shownPath_singleton, shownPath_singleton]
    | cons next rest =>
      have front : shownPath (dir :: next :: rest) =
          dir ++ [Path.slash] ++ shownPath (next :: rest) := shownPath_cons (by simp)
      rw [List.cons_append, shownPath_cons (by simp), ih (by simp), front]
      simp only [List.append_assoc]

theorem Source.languageOf?_shownPath (dirs : List Text) {name : Text} (whole : Path.slash ∉ name) :
    languageOf? (Inventory.shownPath (dirs ++ [name])) = languageOf? name := by
  have base : baseName (Inventory.shownPath (dirs ++ [name])) = name := by
    cases dirs with
    | nil => rw [List.nil_append, Inventory.shownPath_singleton, baseName_of_notMem whole]
    | cons dir dirs => rw [Inventory.shownPath_concat (by simp), baseName_append whole]
  rw [languageOf?, suffix, base, languageOf?, suffix, baseName_of_notMem whole]

mutual

/-- How many directories are within each other from this node down. -/
def Node.height : Node → Nat
  | dir entries => heights entries + 1
  | _ => 0

def Node.heights : List (Text × Node) → Nat
  | [] => 0
  | (_, node) :: rest => max node.height (heights rest)

end

theorem Node.height_le_heights {entries : List (Text × Node)} {name : Text} {node : Node}
    (h : (name, node) ∈ entries) : node.height ≤ heights entries := by
  induction entries with
  | nil => cases h
  | cons entry rest ih =>
    obtain ⟨other, next⟩ := entry
    rw [heights]
    rcases List.mem_cons.mp h with same | inside
    · obtain ⟨-, rfl⟩ := Prod.mk.inj same
      exact Nat.le_max_left ..
    · exact (ih inside).trans (Nat.le_max_right ..)

theorem Node.length_lt_height {tree : Node} {dirs : List Text} {entries : List (Text × Node)}
    (walk : tree.walk? dirs = some (.dir entries)) : dirs.length < tree.height := by
  induction dirs generalizing tree with
  | nil =>
    obtain rfl := Option.some.inj walk
    exact Nat.succ_pos _
  | cons dir dirs ih =>
    obtain ⟨others, next, rfl, found, -, walk⟩ := Node.walk?_cons walk
    rw [height, List.length_cons]
    exact Nat.succ_lt_succ ((ih walk).trans_le (height_le_heights (mem_of_lookup_eq_some found)))

namespace Inventory

open Disk (Entry Reaches)

variable {disk : Disk} {depth : Nat} {asked : Text} {root : Path} {place : List Text} {tree : Node}

/-- The list has what the walk comes to below the node at a place and counts, in its order. -/
structure Lists (disk : Disk) (lists : List Text → Bool) (depth : Nat) (place : List Text)
    (tree : Node) (listing : List Stop) : Prop where
  mem : ∀ stop, stop ∈ listing ↔ ∃ dirs name node, stop.names = dirs ++ [name] ∧
    Entry tree dirs name node ∧ Reaches lists depth place dirs ∧
    disk.Comes (depth - dirs.length) (place ++ dirs) name node stop.tooDeep ∧
    (stop.tooDeep = true ∨ (Source.languageOf? name).isSome = true)
  ordered : listing.Pairwise Stop.Earlier

/-- The list has each visible file below the node at a place that is in a tracked language, in the
order of the walk. -/
structure Selects (disk : Disk) (place : List Text) (tree : Node) (selected : List (List Text)) :
    Prop where
  mem : ∀ names, names ∈ selected ↔ ∃ dirs name node, names = dirs ++ [name] ∧
    Entry tree dirs name node ∧ disk.countsAsDir (place ++ names) node = false ∧
    (Source.languageOf? name).isSome = true
  ordered : selected.Pairwise Precedes

theorem Lists.unique {lists : List Text → Bool} {listing other : List Stop}
    (first : Lists disk lists depth place tree listing)
    (second : Lists disk lists depth place tree other) : listing = other :=
  first.ordered.eq_of_mem_iff second.ordered fun stop =>
    (first.mem stop).trans (second.mem stop).symm

theorem Selects.unique {selected other : List (List Text)}
    (first : Selects disk place tree selected) (second : Selects disk place tree other) :
    selected = other :=
  first.ordered.eq_of_mem_iff second.ordered fun names =>
    (first.mem names).trans (second.mem names).symm

theorem lists_stops (disk : Disk) (lists : List Text → Bool) (depth : Nat) (place : List Text)
    (named : tree.isWellNamed = true) :
    Lists disk lists depth place tree ((disk.stops lists depth place tree).filter counts) where
  ordered := (disk.pairwise_stops lists depth place tree named).filter _
  mem := by
    rintro ⟨names, tooDeep⟩
    have counts_iff (dirs : List Text) (name : Text) (same : names = dirs ++ [name])
        (inside : ⟨names, tooDeep⟩ ∈ disk.stops lists depth place tree) :
        counts ⟨names, tooDeep⟩ = true ↔
          (tooDeep = true ∨ (Source.languageOf? name).isSome = true) := by
      have valid := Disk.isEntryName_of_mem_stops named inside name (by simp [same])
      rw [counts, Bool.or_eq_true, isTracked, same,
        Source.languageOf?_shownPath dirs (isEntryName_iff.mp valid).1]
    rw [List.mem_filter]
    constructor
    · rintro ⟨inside, counted⟩
      obtain ⟨dirs, name, node, rfl, entry, reaches, comes⟩ := (Disk.mem_stops_iff named).mp inside
      exact ⟨dirs, name, node, rfl, entry, reaches, comes,
        (counts_iff dirs name rfl inside).mp counted⟩
    · rintro ⟨dirs, name, node, rfl, entry, reaches, comes, counted⟩
      have inside := (Disk.mem_stops_iff named).mpr
        ⟨dirs, name, node, rfl, entry, reaches, comes⟩
      exact ⟨inside, (counts_iff dirs name rfl inside).mpr counted⟩

/-- A walk that lists every directory, and may go into them all, comes to the visible files. -/
theorem selects_stops (disk : Disk) (place : List Text) (named : tree.isWellNamed = true) :
    Selects disk place tree
      (((disk.stops (fun _ => true) tree.height place tree).filter counts).map Stop.names) := by
  obtain ⟨mem, ordered⟩ := lists_stops disk (fun _ => true) tree.height place named
  set listing := (disk.stops (fun _ => true) tree.height place tree).filter counts
  have bounded {dirs : List Text} {name : Text} {node : Node} (entry : Entry tree dirs name node) :
      dirs.length < tree.height :=
    let ⟨_, walk, _⟩ := entry.found
    Node.length_lt_height walk
  have file (stop : Stop) (inside : stop ∈ listing) : stop.tooDeep = false := by
    obtain ⟨dirs, name, node, -, entry, -, ⟨-, deep⟩, -⟩ := (mem stop).mp inside
    have short := bounded entry
    cases tooDeep : stop.tooDeep with
    | false => rfl
    | true => exact absurd (deep tooDeep).1 (by omega)
  refine ⟨fun names => ?_, ?_⟩
  · rw [List.mem_map]
    constructor
    · rintro ⟨stop, inside, rfl⟩
      obtain ⟨dirs, name, node, same, entry, -, ⟨kind, -⟩, counted⟩ := (mem stop).mp inside
      rw [file stop inside] at kind counted
      refine ⟨dirs, name, node, same, entry, ?_, by simpa using counted⟩
      rwa [same, ← List.append_assoc]
    · rintro ⟨dirs, name, node, rfl, entry, kind, tracked⟩
      refine ⟨⟨dirs ++ [name], false⟩, (mem _).mpr ⟨dirs, name, node, rfl, entry,
        ⟨(bounded entry).le, fun _ _ => rfl⟩, ⟨?_, nofun⟩, .inr tracked⟩, rfl⟩
      rwa [List.append_assoc]
  · rw [List.pairwise_map]
    refine ordered.imp_of_mem fun inside there early => ?_
    rwa [Stop.Earlier, Stop.rank, Stop.rank, file _ inside, file _ there] at early

def AreWhole (names : List Text) : Prop := names ≠ [] ∧ ∀ name ∈ names, isEntryName name = true

theorem AreWhole.pathNames_shownPath {names : List Text} (whole : AreWhole names) :
    pathNames (shownPath names) = names :=
  IndexCoverage.pathNames_shownPath whole.1 fun name inside =>
    (isEntryName_iff.mp (whole.2 name inside)).1

theorem areWhole_of_entry {dirs : List Text} {name : Text} {node : Node}
    (named : tree.isWellNamed = true) (entry : Entry tree dirs name node) :
    AreWhole (dirs ++ [name]) := by
  refine ⟨by simp, ?_⟩
  induction dirs generalizing tree with
  | nil =>
    obtain ⟨entries, rfl⟩ := entry.exists_dir
    have inside := mem_of_lookup_eq_some (Disk.entry_nil.mp entry)
    simpa using ((Node.isWellNamed_dir_iff.mp named).2 name node inside).1
  | cons dir dirs ih =>
    obtain ⟨entries, rfl⟩ := entry.exists_dir
    obtain ⟨more, here, -, deeper⟩ := Disk.entry_cons.mp entry
    obtain ⟨valid, inner⟩ :=
      (Node.isWellNamed_dir_iff.mp named).2 dir _ (mem_of_lookup_eq_some here)
    exact List.forall_mem_cons.mpr ⟨valid, ih inner deeper⟩

theorem Lists.areWhole {lists : List Text → Bool} {listing : List Stop}
    (h : Lists disk lists depth place tree listing) (named : tree.isWellNamed = true) :
    ∀ stop ∈ listing, AreWhole stop.names := by
  intro stop inside
  obtain ⟨dirs, name, node, same, entry, -⟩ := (h.mem stop).mp inside
  exact same ▸ areWhole_of_entry named entry

theorem Selects.areWhole {selected : List (List Text)} (h : Selects disk place tree selected)
    (named : tree.isWellNamed = true) : ∀ names ∈ selected, AreWhole names := by
  intro names inside
  obtain ⟨dirs, name, node, rfl, entry, -⟩ := (h.mem names).mp inside
  exact areWhole_of_entry named entry

theorem shownPath_inj {names others : List Text} (whole : AreWhole names)
    (wholeToo : AreWhole others) (same : shownPath names = shownPath others) : names = others := by
  rw [← whole.pathNames_shownPath, same, wholeToo.pathNames_shownPath]

theorem failureAt_file (isDir : disk.isDir root = .ok true) {names : List Text}
    (whole : AreWhole names) {failure : Failure}
    (fails : failureAt disk root.parts { names } = some failure) :
    ∃ cause, disk.read (Path.ofPlace (root.parts ++ names)) = .error (.system cause) ∧
      failure = .inventory ⟨shownPath names, cause⟩ := by
  rw [failureAt] at fails
  cases read : disk.read (Path.ofPlace (root.parts ++ names)) with
  | ok bytes => simp [read] at fails
  | error e =>
    have valid : ∀ name ∈ root.parts ++ names, Disk.badName? name = none := by
      obtain ⟨place, others, found⟩ := Disk.find_of_isDir isDir
      exact List.forall_mem_append.mpr ⟨Disk.badName?_of_find found,
        fun name inside => (isEntryName_iff.mp (whole.2 name inside)).2⟩
    obtain ⟨cause, rfl⟩ := Disk.exists_system_of_read (Disk.badName?_ofPlace valid) read
    simp only [read, Bool.false_eq_true, if_false, Option.some.injEq] at fails
    exact ⟨cause, rfl, fails.symm⟩

theorem map_path_of_foundAt {stops : List Stop} {files : Inventory}
    (found : List.Forall₂ (fun stop => FoundAt disk place stop.names) stops files) :
    files.map SourceFile.path = stops.map fun stop => shownPath stop.names := by
  have same : List.Forall₂ Eq (files.map SourceFile.path)
      (stops.map fun stop => shownPath stop.names) := by
    rw [List.forall₂_map_left_iff, List.forall₂_map_right_iff]
    exact found.flip.imp fun file stop here => here.path
  rwa [List.forall₂_eq_eq_eq] at same

theorem tooDeep_of_passes {stop : Stop} (passes : failureAt disk place stop = none) :
    stop.tooDeep = false := by
  cases tooDeep : stop.tooDeep with
  | false => rfl
  | true => simp [failureAt, tooDeep] at passes

theorem precedes_of_build {log : Log} {files : Inventory} (named : disk.top.isWellNamed = true)
    (h : Logged.outcome (build disk depth asked) log = .ok files) :
    (files.map SourceFile.path).Pairwise fun path other =>
      Precedes (pathNames path) (pathNames other) := by
  obtain ⟨place, again, read⟩ := exists_readFiles_of_build h
  have below : ((disk.top.at? place).getD default).isWellNamed = true := by
    cases here : disk.top.at? place with
    | none => rfl
    | some tree => exact Node.isWellNamed_at? named here
  have lists := lists_stops disk disk.canList depth place below
  obtain ⟨passing, found⟩ := foundAt_of_readFiles read
  rw [List.findSome?_eq_none_iff] at passing
  rw [map_path_of_foundAt found, List.pairwise_map]
  refine lists.ordered.imp_of_mem fun inside there early => ?_
  rw [Stop.Earlier, Stop.rank, Stop.rank, tooDeep_of_passes (passing _ inside),
    tooDeep_of_passes (passing _ there)] at early
  rwa [(lists.areWhole below _ inside).pathNames_shownPath,
    (lists.areWhole below _ there).pathNames_shownPath]

theorem Lists.mem_of_file {lists : List Text → Bool} {listing : List Stop}
    {selected : List (List Text)} (listed : Lists disk lists depth place tree listing)
    (selects : Selects disk place tree selected) {names : List Text} (h : { names } ∈ listing) :
    names ∈ selected := by
  obtain ⟨dirs, name, node, rfl, entry, -, ⟨kind, -⟩, tracked⟩ := (listed.mem _).mp h
  refine (selects.mem _).mpr ⟨dirs, name, node, rfl, entry, ?_, by simpa using tracked⟩
  rwa [← List.append_assoc]

theorem files_eq_of_subset {lists : List Text → Bool} {listing : List Stop}
    {selected : List (List Text)} (listed : Lists disk lists depth place tree listing)
    (selects : Selects disk place tree selected)
    (shallow : ∀ stop ∈ listing, stop.tooDeep = false)
    (missing : ∀ names ∈ selected, { names } ∈ listing) : files selected = listing := by
  have ordered : (files selected).Pairwise Stop.Earlier := List.pairwise_map.mpr selects.ordered
  refine ordered.eq_of_mem_iff listed.ordered fun stop => mem_files.trans ?_
  obtain ⟨names, tooDeep⟩ := stop
  constructor
  · rintro ⟨rfl, inside⟩
    exact missing names inside
  · intro inside
    obtain rfl : tooDeep = false := shallow _ inside
    exact ⟨rfl, listed.mem_of_file selects inside⟩

/-- A walk comes to all that is selected if it gets into every visible directory. -/
theorem files_eq_of_reaches {lists : List Text → Bool} {listing : List Stop}
    {selected : List (List Text)} (listed : Lists disk lists depth place tree listing)
    (selects : Selects disk place tree selected)
    (gets : ∀ dirs name node, Entry tree dirs name node →
      Reaches lists depth place dirs ∧ dirs.length < depth) : files selected = listing := by
  refine files_eq_of_subset listed selects (fun stop inside => ?_) fun names inside => ?_
  · obtain ⟨dirs, name, node, -, entry, -, ⟨-, deep⟩, -⟩ := (listed.mem stop).mp inside
    have short := (gets dirs name node entry).2
    cases tooDeep : stop.tooDeep with
    | false => rfl
    | true => exact absurd (deep tooDeep).1 (by omega)
  · obtain ⟨dirs, name, node, rfl, entry, kind, tracked⟩ := (selects.mem names).mp inside
    refine (listed.mem _).mpr ⟨dirs, name, node, rfl, entry, (gets dirs name node entry).1,
      ⟨?_, nofun⟩, .inr tracked⟩
    rwa [List.append_assoc]

theorem reads_files_iff {lists : List Text → Bool} {listing : List Stop}
    {selected : List (List Text)} {outcome : Except Failure Inventory}
    (named : tree.isWellNamed = true) (listed : Lists disk lists depth place tree listing)
    (selects : Selects disk place tree selected) (reads : Reads disk place listing outcome) :
    Reads disk place (files selected) outcome ↔
      (files selected).findSome? (failureAt disk place) =
        listing.findSome? (failureAt disk place) ∧
      (listing.findSome? (failureAt disk place) = none →
        ∀ names ∈ selected, { names } ∈ listing) := by
  cases outcome with
  | error failure =>
    rw [reads_error_iff] at reads ⊢
    simp [reads]
  | ok found =>
    obtain ⟨passing, here⟩ := reads_ok_iff.mp reads
    have shallow (stop : Stop) (inside : stop ∈ listing) : stop.tooDeep = false :=
      tooDeep_of_passes (List.findSome?_eq_none_iff.mp passing stop inside)
    rw [reads_ok_iff, passing]
    refine and_congr_right fun _ => ⟨fun there _ names inside => ?_, fun missing => ?_⟩
    · have same := (map_path_of_foundAt there).symm.trans (map_path_of_foundAt here)
      have shown : shownPath names ∈ listing.map fun stop => shownPath stop.names :=
        same ▸ List.mem_map.mpr ⟨{ names }, mem_files.mpr ⟨rfl, inside⟩, rfl⟩
      obtain ⟨⟨others, tooDeep⟩, also, path⟩ := List.mem_map.mp shown
      obtain rfl : tooDeep = false := shallow _ also
      rwa [shownPath_inj (selects.areWhole named names inside) (listed.areWhole named _ also)
        path.symm]
    · rwa [files_eq_of_subset listed selects shallow (missing rfl)]

/-- An inventory is what is read where the walk gets. That is to hold the visible files in a tracked
language, each once and as it is found, in the order of the walk, or to fail at the first of them
that cannot be read. It does so exactly if the walk fails at the same file, or nothing fails and the
walk comes to each of them; and so it does if the walk gets into every visible directory. -/
theorem build_reads_selected_iff (depth : Nat) {entries : List (Text × Node)}
    (located : disk.locate asked = .ok root) (isDir : disk.isDir root = .ok true)
    (here : disk.top.at? root.parts = some (.dir entries))
    (named : (Node.dir entries).isWellNamed = true) :
    ∃ listing selected,
      (∀ other, Lists disk disk.canList depth root.parts (.dir entries) other ↔
        other = listing) ∧
      (∀ other, Selects disk root.parts (.dir entries) other ↔ other = selected) ∧
      (selected.map shownPath).Nodup ∧
      (∀ names, { names } ∈ listing → names ∈ selected) ∧
      (∀ names ∈ selected, ∀ failure, failureAt disk root.parts { names } = some failure →
        ∃ cause, disk.read (Path.ofPlace (root.parts ++ names)) = .error (.system cause) ∧
          failure = .inventory ⟨shownPath names, cause⟩) ∧
      (∀ log,
        Reads disk root.parts listing (Logged.outcome (build disk depth asked) log) ∧
        (Reads disk root.parts (files selected) (Logged.outcome (build disk depth asked) log) ↔
          (files selected).findSome? (failureAt disk root.parts) =
            listing.findSome? (failureAt disk root.parts) ∧
          (listing.findSome? (failureAt disk root.parts) = none →
            ∀ names ∈ selected, { names } ∈ listing))) ∧
      ((∀ dirs name node, Entry (.dir entries) dirs name node →
          Reaches disk.canList depth root.parts dirs ∧ dirs.length < depth) →
        files selected = listing) := by
  have listed := lists_stops disk disk.canList depth root.parts named
  have selects := selects_stops disk root.parts named
  refine ⟨_, _, fun other => ⟨fun also => also.unique listed, fun same => same ▸ listed⟩,
    fun other => ⟨fun also => also.unique selects, fun same => same ▸ selects⟩, ?once,
    fun names => listed.mem_of_file selects, ?failures, fun log => ?reads,
    files_eq_of_reaches listed selects⟩
  case once =>
    refine selects.ordered.nodup.map_on fun names inside others there => ?_
    exact shownPath_inj (selects.areWhole named names inside) (selects.areWhole named others there)
  case failures =>
    intro names inside failure
    exact failureAt_file isDir (selects.areWhole named names inside)
  case reads =>
    rw [outcome_build located isDir here]
    exact ⟨reads_readFiles _ log, reads_files_iff named listed selects (reads_readFiles _ log)⟩

section Visited

/-- A directory with a link in it and another beside it, a hidden file, and a hidden directory and
an untracked file with nothing to read. -/
def visitedTree (target : Text) : List (Text × Node) :=
  [("b", .dir [("y.go", .link target), ("x.go", .file (Text.toUtf8 "f\n"))]),
    ("b.go", .link "b"),
    (".a.go", .file (Text.toUtf8 "f\ng\n")),
    (".git", .dir [("c.go", .link "gone")]),
    ("n.txt", .link "gone")]

def visitedDisk (target : Text) : Disk where
  top := .dir [("r", .dir (visitedTree target))]
  workDir := []
  home := "/"

def visitedFiles : List (List Text) := [[".a.go"], ["b", "x.go"], ["b", "y.go"]]

theorem isWellNamed_visitedTree (target : Text) :
    (Node.dir (visitedTree target)).isWellNamed = true := rfl

theorem liesAt_visited (target : Text) :
    (visitedDisk target).LiesAt ["r"] (.dir (visitedTree target)) :=
  ⟨rfl, rfl, by decide, rfl, rfl⟩

theorem liesAt_visited_inner (target : Text) : (visitedDisk target).LiesAt ["r", "b"]
    (.dir [("y.go", .link target), ("x.go", .file (Text.toUtf8 "f\n"))]) :=
  ⟨rfl, rfl, by decide, rfl, rfl⟩

theorem find_visited_gone : (visitedDisk "gone").find (Path.ofPlace ["r", "b", "y.go"]) =
    .error (.system ⟨.notFound, "/r/b/y.go"⟩) := by
  have link := (liesAt_visited_inner "gone").follow_link 39 "y.go" rfl rfl rfl
  exact Disk.find_of_follow_error rfl (link.trans (Disk.follow_missing rfl rfl rfl rfl))

theorem find_visited_there : (visitedDisk "x.go").find (Path.ofPlace ["r", "b", "y.go"]) =
    .ok (["r", "b", "x.go"], .file (Text.toUtf8 "f\n")) := by
  have link := (liesAt_visited_inner "x.go").follow_link 39 "y.go" rfl rfl rfl
  exact Disk.find_of_follow rfl (link.trans (Disk.follow_of_walk rfl rfl (by decide) rfl))

theorem find_visited_dir (target : Text) :
    (visitedDisk target).find (Path.ofPlace ["r", "b.go"]) =
      .ok (["r", "b"], .dir [("y.go", .link target), ("x.go", .file (Text.toUtf8 "f\n"))]) := by
  have link := (liesAt_visited target).follow_link 39 "b.go" rfl rfl rfl
  exact Disk.find_of_follow rfl (link.trans (Disk.follow_of_walk rfl rfl (by decide) rfl))

theorem find_visited_untracked (target : Text) :
    (visitedDisk target).find (Path.ofPlace ["r", "n.txt"]) =
      .error (.system ⟨.notFound, "/r/n.txt"⟩) := by
  have link := (liesAt_visited target).follow_link 39 "n.txt" rfl rfl rfl
  exact Disk.find_of_follow_error rfl (link.trans (Disk.follow_missing rfl rfl rfl rfl))

theorem lists_visited {target : Text}
    (noDir : (visitedDisk target).leadsToDir ["r", "b", "y.go"] = false) :
    Lists (visitedDisk target) (visitedDisk target).canList 1 ["r"] (.dir (visitedTree target))
      (files visitedFiles) := by
  have root : (visitedDisk target).canList ["r"] = true := (liesAt_visited target).canList
  have dir : (visitedDisk target).canList ["r", "b"] = true :=
    Disk.LiesAt.canList ⟨rfl, rfl, by decide, rfl, rfl⟩
  have toDir : (visitedDisk target).leadsToDir ["r", "b.go"] = true := by
    refine Disk.leadsToDir_of_isDir ?_
    rw [Disk.isDir, Disk.holds, find_visited_dir]
  have gone : (visitedDisk target).leadsToDir ["r", "n.txt"] = false := by
    refine Disk.leadsToDir_of_isDir ?_
    rw [Disk.isDir, Disk.holds, find_visited_untracked]
    rfl
  have inner : Disk.listed [("y.go", .file), ("x.go", .file)] = files [["x.go"], ["y.go"]] := by
    rw [Disk.listed, Disk.byName_eq [("x.go", .file), ("y.go", .file)] (by decide) (by decide)]
    rfl
  have outer : Disk.listed [("b", .tree (files [["x.go"], ["y.go"]])), ("b.go", .skipped),
      (".a.go", .file), (".git", .skipped), ("n.txt", .file)] =
        files [[".a.go"], ["n.txt"], ["b", "x.go"], ["b", "y.go"]] := by
    rw [Disk.listed, Disk.byName_eq [(".a.go", .file), (".git", .skipped),
      ("b", .tree (files [["x.go"], ["y.go"]])), ("b.go", .skipped), ("n.txt", .file)]
      (by decide) (by decide)]
    rfl
  have walk : ((visitedDisk target).stops (visitedDisk target).canList 1 ["r"]
      (.dir (visitedTree target))).filter counts = files visitedFiles := by
    have hidden : Disk.isHidden ".git" = true ∧ Disk.isHidden "b" = false := by decide
    simp only [Disk.stops, visitedTree, Disk.branches, List.cons_append, List.nil_append, root,
      dir, toDir, gone, noDir, hidden, Bool.not_true, Bool.not_false, Bool.false_eq_true, if_true,
      if_false, ne_eq, Nat.succ_ne_zero, not_false_eq_true, decide_true, Bool.or_true, inner, outer]
    rfl
  exact walk ▸ lists_stops _ _ _ _ (isWellNamed_visitedTree target)

theorem passes_visited {target : Text} {names : List Text} {place : List Text} {content : Bytes}
    (found : (visitedDisk target).find (Path.ofPlace ("r" :: names)) =
      .ok (place, .file content)) :
    failureAt (visitedDisk target) ["r"] { names } = none := by
  have read : (visitedDisk target).read (Path.ofPlace ("r" :: names)) = .ok content :=
    Disk.read_of_find found rfl
  simp [failureAt, read]

/-- The link leads nowhere and is the failure, or it leads to a file and counts as one. -/
theorem build_reads_selected_visited :
    (∀ target, (visitedDisk target).locate "/r" = .ok (Path.ofPlace ["r"]) ∧
      (visitedDisk target).isDir (Path.ofPlace ["r"]) = .ok true ∧
      (visitedDisk target).top.at? ["r"] = some (.dir (visitedTree target)) ∧
      (Node.dir (visitedTree target)).isWellNamed = true) ∧
    (∀ log, Logged.outcome (build (visitedDisk "gone") 1 "/r") log =
      .error (.inventory ⟨"b/y.go", ⟨.notFound, "/r/b/y.go"⟩⟩)) ∧
    ∀ log, ∃ found, Logged.outcome (build (visitedDisk "x.go") 1 "/r") log = .ok found ∧
      List.Forall₂ (fun stop => FoundAt (visitedDisk "x.go") ["r"] stop.names)
        (files visitedFiles) found := by
  have located (target : Text) : (visitedDisk target).locate "/r" = .ok (Path.ofPlace ["r"]) :=
    (liesAt_visited target).locate rfl
  have isDir (target : Text) : (visitedDisk target).isDir (Path.ofPlace ["r"]) = .ok true :=
    (liesAt_visited target).holds _
  have hiddenFile (target : Text) :
      failureAt (visitedDisk target) ["r"] { names := [".a.go"] } = none :=
    passes_visited (Disk.LiesAt.find ⟨rfl, rfl, by decide, rfl, rfl⟩)
  have beside (target : Text) :
      failureAt (visitedDisk target) ["r"] { names := ["b", "x.go"] } = none :=
    passes_visited (Disk.LiesAt.find ⟨rfl, rfl, by decide, rfl, rfl⟩)
  refine ⟨fun target => ⟨located target, isDir target, rfl, isWellNamed_visitedTree target⟩,
    fun log => ?gone, fun log => ?there⟩
  case gone =>
    have noDir : (visitedDisk "gone").leadsToDir ["r", "b", "y.go"] = false := by
      refine Disk.leadsToDir_of_isDir ?_
      rw [Disk.isDir, Disk.holds, find_visited_gone]
      rfl
    have read : (visitedDisk "gone").read (Path.ofPlace ["r", "b", "y.go"]) =
        .error (.system ⟨.notFound, "/r/b/y.go"⟩) := by
      rw [Disk.read, find_visited_gone]
      rfl
    have last : failureAt (visitedDisk "gone") ["r"] { names := ["b", "y.go"] } =
        some (.inventory ⟨"b/y.go", ⟨.notFound, "/r/b/y.go"⟩⟩) := by
      simp only [failureAt, List.cons_append, List.nil_append, read]
      rfl
    have failing : (files visitedFiles).findSome? (failureAt (visitedDisk "gone") ["r"]) =
        some (.inventory ⟨"b/y.go", ⟨.notFound, "/r/b/y.go"⟩⟩) := by
      simp only [files, visitedFiles, List.map_cons, List.map_nil, List.findSome?_cons,
        hiddenFile, beside, last]
    obtain ⟨listing, selected, unique, -, -, -, -, reads, -⟩ := build_reads_selected_iff 1
      (located "gone") (isDir "gone") rfl (isWellNamed_visitedTree "gone")
    obtain rfl := (unique _).mp (lists_visited noDir)
    exact (reads_of_failing failing).mp (reads log).1
  case there =>
    have noDir : (visitedDisk "x.go").leadsToDir ["r", "b", "y.go"] = false := by
      refine Disk.leadsToDir_of_isDir ?_
      rw [Disk.isDir, Disk.holds, find_visited_there]
    have passing :
        (files visitedFiles).findSome? (failureAt (visitedDisk "x.go") ["r"]) = none := by
      simp only [files, visitedFiles, List.map_cons, List.map_nil, List.findSome?_cons,
        List.findSome?_nil, hiddenFile, beside, passes_visited find_visited_there]
    obtain ⟨listing, selected, unique, -, -, -, -, reads, -⟩ := build_reads_selected_iff 1
      (located "x.go") (isDir "x.go") rfl (isWellNamed_visitedTree "x.go")
    obtain rfl := (unique _).mp (lists_visited noDir)
    exact (reads_of_passing passing).mp (reads log).1

end Visited

section Closed

def closedTree : List (Text × Node) :=
  [("a.go", .file []), ("closed", .dir [("b.go", .file [])])]

def closedDisk : Disk where
  top := .dir [("r", .dir closedTree)]
  workDir := []
  home := "/"
  rights place := { read := place ≠ ["r", "closed"] }

def closedFiles : List (List Text) := [["a.go"], ["closed", "b.go"]]

theorem counted_closed (lists : List Text → Bool) (depth : Nat) (top : lists ["r"] = true) :
    (closedDisk.stops lists (depth + 1) ["r"] (.dir closedTree)).filter counts =
      if lists ["r", "closed"] then files closedFiles else files [["a.go"]] := by
  have inner : Disk.listed [("b.go", .file)] = files [["b.go"]] := by
    rw [Disk.listed, Disk.byName_eq _ (.refl _) (List.pairwise_singleton ..)]
    rfl
  have outer (stops : List Stop) : Disk.listed [("a.go", .file), ("closed", .tree stops)] =
      { names := ["a.go"] } :: stops.map (Stop.within "closed") := by
    have early : Text.before "a.go" "closed" = true := by decide
    rw [Disk.listed, Disk.byName_eq _ (.refl _) (List.pairwise_pair.mpr early)]
    simp [Branch.isFile, Branch.below]
  have visible : Disk.isHidden "closed" = false := rfl
  simp only [Disk.stops, closedTree, Disk.branches, List.cons_append, List.nil_append, top,
    visible, if_true, Bool.false_eq_true, if_false, inner, outer]
  cases lists ["r", "closed"] <;> rfl

theorem selects_closed : Selects closedDisk ["r"] (.dir closedTree) closedFiles := by
  have named : (Node.dir closedTree).isWellNamed = true := rfl
  have all : ((closedDisk.stops (fun _ => true) (Node.dir closedTree).height ["r"]
      (.dir closedTree)).filter counts).map Stop.names = closedFiles :=
    congrArg (List.map Stop.names) (counted_closed (fun _ => true) 1 rfl)
  exact all ▸ selects_stops closedDisk ["r"] named

/-- Each file can be read, and the inventory is without the one that the walk does not come to. -/
theorem build_closed : Selects closedDisk ["r"] (.dir closedTree) closedFiles ∧
    (files closedFiles).findSome? (failureAt closedDisk ["r"]) = none ∧
    ∀ log, Logged.outcome (build closedDisk 970 "/r") log =
        .ok [{ path := "a.go", language := "Go", loc := 0 }] ∧
      ¬Reads closedDisk ["r"] (files closedFiles)
        (Logged.outcome (build closedDisk 970 "/r") log) := by
  have top : closedDisk.LiesAt ["r"] (.dir closedTree) := ⟨rfl, rfl, by decide, rfl, rfl⟩
  have closed : closedDisk.LiesAt ["r", "closed"] (.dir [("b.go", .file [])]) :=
    ⟨rfl, rfl, by decide, rfl, rfl⟩
  have first : FoundAt closedDisk ["r"] ["a.go"] { path := "a.go", language := "Go", loc := 0 } :=
    foundAt_of_liesAt ⟨rfl, rfl, by decide, rfl, rfl⟩ rfl rfl (by decide +kernel)
  have second : FoundAt closedDisk ["r"] ["closed", "b.go"]
      { path := "closed/b.go", language := "Go", loc := 0 } :=
    foundAt_of_liesAt ⟨rfl, rfl, by decide, rfl, rfl⟩ rfl rfl (by decide +kernel)
  have missed : (closedDisk.stops closedDisk.canList 970 ["r"] (.dir closedTree)).filter counts =
      files [["a.go"]] := by
    rw [counted_closed closedDisk.canList 969 top.canList, closed.canList]
    rfl
  refine ⟨selects_closed, failureAt_of_found (.cons first (.cons second .nil)), fun log => ?_⟩
  have built : Logged.outcome (build closedDisk 970 "/r") log =
      .ok [{ path := "a.go", language := "Go", loc := 0 }] :=
    outcome_build_of_found top rfl rfl missed (.cons first .nil) log
  refine ⟨built, fun reads => ?_⟩
  rw [built, reads_ok_iff] at reads
  exact absurd reads.2.length_eq (by decide)

end Closed

end Inventory
end IndexCoverage
