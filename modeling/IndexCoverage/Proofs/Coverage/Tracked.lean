import IndexCoverage.Inventory
import IndexCoverage.Proofs.Log.Outcome
import Mathlib.Data.List.Forall2

/-! The files of an inventory as the walk of a tree gives them. Each listed file in a tracked
language is there as it is found: with its lines of code, and with nothing counted in it. The
first that cannot be read is the failure. -/

namespace IndexCoverage

structure SourceFile.Fresh (file : SourceFile) : Prop where
  loc : 0 ≤ file.loc
  numRefs : file.numRefs = 0
  numRefsValid : file.numRefsValid = 0
  numDefs : file.numDefs = 0

theorem Source.outcome_measure {ε : Type} (source : Text) (input : Bytes) (log : Log) :
    Logged.outcome (measure source input : Logged ε Nat) log = .ok (countLines input) := by
  unfold measure
  rw [Logged.outcome_bind, Logged.outcome_forIn _ _ (fun _ _ => rfl)]
  rfl

namespace Inventory

variable {disk : Disk} {depth : Nat} {root names : List Text} {log : Log}

def isTracked (names : List Text) : Bool := (Source.languageOf? (shownPath names)).isSome

/-- The file is as it is found where the names lead to from the root. -/
structure FoundAt (disk : Disk) (root names : List Text) (file : SourceFile) : Prop where
  path : file.path = shownPath names
  language : Source.languageOf? file.path = some file.language
  loc : ∃ bytes, disk.read (Path.ofPlace (root ++ names)) = .ok bytes ∧
    file.loc = Source.countLines bytes
  fresh : file.Fresh

theorem readFile_of_untracked (untracked : isTracked names = false) (log : Log) :
    Logged.outcome (readFile disk root names) log = .ok none := by
  rw [isTracked, Option.isSome_eq_false_iff, Option.isNone_iff_eq_none] at untracked
  unfold readFile
  dsimp only
  rw [untracked]
  rfl

theorem readFile_of_readable (tracked : isTracked names = true) {bytes : Bytes}
    (read : disk.read (Path.ofPlace (root ++ names)) = .ok bytes) (log : Log) :
    ∃ file, Logged.outcome (readFile disk root names) log = .ok (some file) ∧
      FoundAt disk root names file := by
  obtain ⟨language, known⟩ := Option.isSome_iff_exists.mp tracked
  refine ⟨{ path := shownPath names, language, loc := Source.countLines bytes }, ?_,
    rfl, known, ⟨bytes, read, rfl⟩, ⟨Int.natCast_nonneg _, rfl, rfl, rfl⟩⟩
  unfold readFile
  dsimp only
  rw [known]
  simp only [read, Logged.outcome_bind, Source.outcome_measure]
  rfl

def readFailure (names : List Text) : PathError → Failure
  | .system cause => .inventory ⟨shownPath names, cause⟩
  | e => .path e

theorem readFile_of_unreadable (tracked : isTracked names = true) {e : PathError}
    (read : disk.read (Path.ofPlace (root ++ names)) = .error e) (log : Log) :
    Logged.outcome (readFile disk root names) log = .error (readFailure names e) := by
  obtain ⟨language, known⟩ := Option.isSome_iff_exists.mp tracked
  unfold readFile
  dsimp only
  rw [known]
  simp only [read]
  cases e <;> rfl

def failureAt (disk : Disk) (root : List Text) (stop : Stop) : Option Failure :=
  if stop.tooDeep then some (.fault .dirsTooDeep)
  else
    match disk.read (Path.ofPlace (root ++ stop.names)) with
    | .ok _ => none
    | .error e => some (readFailure stop.names e)

/-- Either one of the stops is the first with a failure, which is what comes of them, or each is
found. -/
def Reads (disk : Disk) (root : List Text) (stops : List Stop) :
    Except Failure Inventory → Prop :=
  match stops.findSome? (failureAt disk root) with
  | some failure => fun outcome => outcome = .error failure
  | none => fun outcome => ∃ files, outcome = .ok files ∧
      List.Forall₂ (fun stop => FoundAt disk root stop.names) stops files

theorem reads_of_passing {stops : List Stop} {outcome : Except Failure Inventory}
    (passing : stops.findSome? (failureAt disk root) = none) :
    Reads disk root stops outcome ↔ ∃ files, outcome = .ok files ∧
      List.Forall₂ (fun stop => FoundAt disk root stop.names) stops files := by
  rw [Reads, passing]

theorem reads_of_failing {stops : List Stop} {outcome : Except Failure Inventory}
    {failure : Failure} (failing : stops.findSome? (failureAt disk root) = some failure) :
    Reads disk root stops outcome ↔ outcome = .error failure := by
  rw [Reads, failing]

theorem reads_ok_iff {stops : List Stop} {files : Inventory} :
    Reads disk root stops (.ok files) ↔ stops.findSome? (failureAt disk root) = none ∧
      List.Forall₂ (fun stop => FoundAt disk root stop.names) stops files := by
  cases failing : stops.findSome? (failureAt disk root) with
  | none => simp [reads_of_passing failing]
  | some failure => simp [reads_of_failing failing]

theorem reads_error_iff {stops : List Stop} {failure : Failure} :
    Reads disk root stops (.error failure) ↔
      stops.findSome? (failureAt disk root) = some failure := by
  cases failing : stops.findSome? (failureAt disk root) with
  | none => simp [reads_of_passing failing]
  | some first => simp [reads_of_failing failing, eq_comm]

def counts (stop : Stop) : Bool := stop.tooDeep || isTracked stop.names

theorem reads_readFiles (stops : List Stop) (log : Log) :
    Reads disk root (stops.filter counts) (Logged.outcome (readFiles disk root stops) log) := by
  induction stops generalizing log with
  | nil => exact reads_ok_iff.mpr ⟨rfl, .nil⟩
  | cons stop rest ih =>
    obtain ⟨names, tooDeep⟩ := stop
    cases tooDeep with
    | true =>
      rw [List.filter_cons_of_pos (by rfl)]
      exact reads_error_iff.mpr rfl
    | false =>
      specialize ih (Logged.logAfter (readFile disk root names) log)
      rw [readFiles, Logged.outcome_bind]
      cases tracked : isTracked names with
      | false =>
        rw [List.filter_cons_of_neg (by simp [counts, tracked]), readFile_of_untracked tracked]
        simp only [Except.bind, Logged.outcome_bind]
        cases others : Logged.outcome (readFiles disk root rest)
          (Logged.logAfter (readFile disk root names) log) <;> rw [others] at ih <;> exact ih
      | true =>
        rw [List.filter_cons_of_pos (by simp [counts, tracked])]
        cases read : disk.read (Path.ofPlace (root ++ names)) with
        | error e =>
          rw [readFile_of_unreadable tracked read]
          exact reads_error_iff.mpr (by simp [failureAt, read])
        | ok bytes =>
          obtain ⟨file, first, here⟩ := readFile_of_readable tracked read log
          have passes : failureAt disk root ⟨names, false⟩ = none := by simp [failureAt, read]
          rw [first]
          simp only [Except.bind, Logged.outcome_bind]
          cases others : Logged.outcome (readFiles disk root rest)
            (Logged.logAfter (readFile disk root names) log) with
          | error failure =>
            rw [others, reads_error_iff] at ih
            exact reads_error_iff.mpr (by simp [passes, ih])
          | ok files =>
            rw [others, reads_ok_iff] at ih
            exact reads_ok_iff.mpr ⟨by simpa [passes] using ih.1, .cons here ih.2⟩

theorem foundAt_of_readFiles {stops : List Stop} {files : Inventory}
    (h : Logged.outcome (readFiles disk root stops) log = .ok files) :
    (stops.filter counts).findSome? (failureAt disk root) = none ∧
      List.Forall₂ (fun stop => FoundAt disk root stop.names) (stops.filter counts) files :=
  reads_ok_iff.mp (h ▸ reads_readFiles stops log)

theorem exists_readFiles_of_build {asked : Text} {files : Inventory}
    (h : Logged.outcome (build disk depth asked) log = .ok files) :
    ∃ root log, Logged.outcome (readFiles disk root
      (disk.stops disk.canList depth root ((disk.top.at? root).getD default))) log = .ok files := by
  simp only [build, Logged.outcome_bind, bind_eq_ok_iff] at h
  obtain ⟨root, -, there, -, h⟩ := h
  cases there with
  | false => simp at h
  | true =>
    simp only [Bool.not_true, Bool.false_eq_true, if_false, Logged.outcome_bind,
      bind_eq_ok_iff] at h
    obtain ⟨directory, -, h⟩ := h
    cases directory with
    | false => simp at h
    | true =>
      simp only [Bool.not_true, Bool.false_eq_true, if_false, Logged.outcome_bind,
        bind_eq_ok_iff] at h
      obtain ⟨found, read, -, -, made⟩ := h
      obtain rfl := Except.ok.inj made
      exact ⟨root.parts, _, read⟩

theorem foundAt_of_build {asked : Text} {files : Inventory}
    (h : Logged.outcome (build disk depth asked) log = .ok files) :
    ∀ file ∈ files, ∃ root names, FoundAt disk root names file := by
  obtain ⟨root, log, read⟩ := exists_readFiles_of_build h
  intro file inside
  obtain ⟨n, bound, rfl⟩ := List.mem_iff_getElem.mp inside
  obtain ⟨-, found⟩ := foundAt_of_readFiles read
  exact ⟨root, _, found.get (found.length_eq ▸ bound) bound⟩

theorem fresh_build {asked : Text} {files : Inventory}
    (h : Logged.outcome (build disk depth asked) log = .ok files) : ∀ file ∈ files, file.Fresh := by
  intro file inside
  obtain ⟨root, names, found⟩ := foundAt_of_build h file inside
  exact found.fresh

theorem language_of_build {asked : Text} {files : Inventory}
    (h : Logged.outcome (build disk depth asked) log = .ok files) :
    ∀ file ∈ files, file.language ∈ Source.languages.map Prod.snd := by
  intro file inside
  obtain ⟨root, names, found⟩ := foundAt_of_build h file inside
  obtain ⟨early, late, split, -⟩ := List.lookup_eq_some_iff.mp found.language
  rw [split]
  simp

end Inventory
end IndexCoverage
