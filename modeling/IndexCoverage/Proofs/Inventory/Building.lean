import IndexCoverage.Proofs.Coverage.Tracked
import IndexCoverage.Proofs.Disk.Plain
import IndexCoverage.Proofs.Inventory.Listing
import Mathlib.Data.List.Sort

/-! The inventory of a directory, told from what the walk comes to and from what is found there. -/

namespace IndexCoverage

namespace Disk

variable {disk : Disk} {names : List Text}

theorem find_of_isDir {path : Path} (h : disk.isDir path = .ok true) :
    ∃ place entries, disk.find path = .ok (place, .dir entries) := by
  unfold isDir holds at h
  cases found : disk.find path with
  | error e =>
    rw [found] at h
    cases e with
    | system cause =>
      dsimp only at h
      split at h <;> cases h
    | _ => cases h
  | ok target =>
    obtain ⟨place, node⟩ := target
    rw [found] at h
    cases node with
    | dir entries => exact ⟨place, entries, rfl⟩
    | file content => simp at h
    | link text => simp at h

theorem LiesAt.canList {entries : List (Text × Node)} (lies : disk.LiesAt names (.dir entries)) :
    disk.canList names = (disk.rights names).read := by
  rw [Disk.canList, lies.find]

theorem leadsToDir_of_isDir {answer : Bool}
    (h : disk.isDir (Path.ofPlace names) = .ok answer) : disk.leadsToDir names = answer := by
  rw [leadsToDir, h]

theorem byName_eq {branches : List (Text × Branch)} (sorted : List (Text × Branch))
    (perm : branches.Perm sorted)
    (ordered : sorted.Pairwise fun a b => Text.before a.1 b.1 = true) :
    byName branches = sorted := by
  have distinct : (branches.map Prod.fst).Nodup := by
    rw [(perm.map Prod.fst).nodup_iff, List.Nodup, List.pairwise_map]
    exact ordered.imp Text.ne_of_before
  have asymm : Std.Asymm fun a b : Text × Branch => Text.before a.1 b.1 = true :=
    ⟨fun _ _ early late => Bool.false_ne_true ((Text.before_asymm early).symm.trans late)⟩
  exact (pairwise_byName distinct).eq_of_mem_iff ordered fun branch =>
    List.mem_mergeSort.trans perm.mem_iff

end Disk

namespace Inventory

variable {disk : Disk} {depth : Nat} {asked : Text} {root : Path} {place names : List Text}

theorem outcome_build {entries : List (Text × Node)} (located : disk.locate asked = .ok root)
    (isDir : disk.isDir root = .ok true)
    (here : disk.top.at? root.parts = some (.dir entries)) (log : Log) :
    Logged.outcome (build disk depth asked) log = Logged.outcome (readFiles disk root.parts
      (disk.stops disk.canList depth root.parts (.dir entries))) log := by
  have there : disk.exists? root = .ok true := by
    obtain ⟨place, others, found⟩ := Disk.find_of_isDir isDir
    rw [Disk.exists?, Disk.holds, found]
  rw [build, located]
  simp only [mapError_ok, Logged.ofExcept_ok_bind, there, isDir, here, Option.getD_some,
    Bool.not_true, Bool.false_eq_true, if_false, Logged.outcome_bind]
  cases Logged.outcome (readFiles disk root.parts
    (disk.stops disk.canList depth root.parts (.dir entries))) log <;> rfl

theorem foundAt_of_liesAt {content : Bytes} {language : Text} {loc : Nat}
    (lies : disk.LiesAt (place ++ names) (.file content))
    (may : (disk.rights (place ++ names)).read = true)
    (known : Source.languageOf? (shownPath names) = some language)
    (counted : Source.countLines content = loc) :
    FoundAt disk place names { path := shownPath names, language, loc } where
  path := rfl
  language := known
  loc := ⟨content, Disk.read_of_find lies.find may, by rw [counted]⟩
  fresh := ⟨Int.natCast_nonneg _, rfl, rfl, rfl⟩

theorem FoundAt.unique {file other : SourceFile} (first : FoundAt disk place names file)
    (second : FoundAt disk place names other) : file = other := by
  obtain ⟨path, language, ⟨bytes, read, loc⟩, fresh⟩ := first
  obtain ⟨samePath, sameLanguage, ⟨others, again, sameLoc⟩, alsoFresh⟩ := second
  rw [path] at language
  rw [samePath, language] at sameLanguage
  rw [again] at read
  obtain rfl := Except.ok.inj read
  obtain ⟨-, refs, valid, defs⟩ := fresh
  obtain ⟨-, otherRefs, otherValid, otherDefs⟩ := alsoFresh
  cases file
  cases other
  simp_all

theorem FoundAt.passes {file : SourceFile} (found : FoundAt disk place names file) :
    failureAt disk place { names } = none := by
  obtain ⟨bytes, read, -⟩ := found.loc
  simp [failureAt, read]

/-- The stops of a walk that comes to these files and to no directory that is too deep. -/
def files (listing : List (List Text)) : List Stop := listing.map fun names => { names }

theorem mem_files {listing : List (List Text)} {stop : Stop} :
    stop ∈ files listing ↔ stop.tooDeep = false ∧ stop.names ∈ listing := by
  obtain ⟨names, tooDeep⟩ := stop
  cases tooDeep <;> simp [files]

theorem failureAt_of_found {listing : List (List Text)} {found : Inventory}
    (h : List.Forall₂ (FoundAt disk place) listing found) :
    (files listing).findSome? (failureAt disk place) = none := by
  induction h with
  | nil => rfl
  | cons first _ ih =>
    rw [files, List.map_cons, List.findSome?_cons, first.passes]
    exact ih

theorem outcome_build_of_found {entries : List (Text × Node)} {listing : List (List Text)}
    {found : Inventory} (lies : disk.LiesAt place (.dir entries))
    (spelled : Path.ofText asked = Path.ofPlace place)
    (here : disk.top.at? place = some (.dir entries))
    (walk : (disk.stops disk.canList depth place (.dir entries)).filter counts = files listing)
    (each : List.Forall₂ (FoundAt disk place) listing found) (log : Log) :
    Logged.outcome (build disk depth asked) log = .ok found := by
  have reads : Reads disk place _ _ :=
    reads_readFiles (disk.stops disk.canList depth place (.dir entries)) log
  rw [walk, reads_of_passing (failureAt_of_found each)] at reads
  obtain ⟨others, read, there⟩ := reads
  rw [files, List.forall₂_map_left_iff] at there
  have single : Relator.RightUnique (FoundAt disk place) := fun _ _ _ => FoundAt.unique
  obtain rfl : others = found := List.right_unique_forall₂' single there each
  rw [outcome_build (lies.locate spelled) (lies.holds _) here]
  exact read

end Inventory
end IndexCoverage
