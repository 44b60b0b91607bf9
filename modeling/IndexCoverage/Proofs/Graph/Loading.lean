import IndexCoverage.Graph.Load
import IndexCoverage.Proofs.Log.Outcome
import Mathlib.Data.List.Forall2

/-! What loading comes to: the failure of the first artifact that cannot be read, or
the data of all artifacts that there are, in order. Neither depends on the log. -/

namespace IndexCoverage

def loadCause? (disk : Disk) (store : Store) (target : Text × SourceUnit) : Option StoreError :=
  match findArtifact disk store target.1 with
  | .ok _ => none
  | .error cause => some cause

/-- What loading fails with at a target. A document that nests too far is not told by
its target and unit. -/
def loadFailure (target : Text × SourceUnit) : StoreError → Failure
  | .fault (.tooDeep bracket) => .fault (.tooDeep bracket)
  | cause => .graphData ⟨target.1, target.2.type, target.2.name, cause⟩

def loadFailure? (disk : Disk) (store : Store) (target : Text × SourceUnit) : Option Failure :=
  (loadCause? disk store target).map (loadFailure target)

def loaded? (disk : Disk) (store : Store) (target : Text × SourceUnit) :
    Option (SourceUnit × Artifact) :=
  match findArtifact disk store target.1 with
  | .ok (.artifact artifact) => some (target.2, artifact)
  | _ => none

def loaded (disk : Disk) (store : Store) (rules : List Rule) : List (SourceUnit × Artifact) :=
  (rules.flatMap Rule.artifacts).filterMap (loaded? disk store)

theorem Store.read_of_locate {store : Store} {name : Text} {path : Path}
    (located : store.locate name = .ok path) (disk : Disk) :
    store.read disk name = (disk.read path).mapError .path := by
  rw [read, located]
  simp only [Bind.bind, Except.bind]
  cases disk.read path <;> rfl

theorem Store.readJson_of_read {disk : Disk} {store : Store} {name : Text} {bytes : Bytes}
    (read : store.read disk name = .ok bytes) :
    store.readJson disk name = decode store.depth name bytes := by
  rw [readJson, read]
  rfl

def Artifact.ofBytes? (depth : Nat) (name : Text) (bytes : Bytes) : Option Artifact :=
  match Store.decode depth name bytes with
  | .ok document => (decode document).toOption
  | .error _ => none

theorem findArtifact_of_bytes {disk : Disk} {store : Store} {target : Text} {bytes : Bytes}
    {artifact : Artifact} (read : store.read disk target = .ok bytes)
    (holds : Artifact.ofBytes? store.depth target bytes = some artifact) :
    findArtifact disk store target = .ok (.artifact artifact) := by
  rw [findArtifact, Store.readJson_of_read read]
  unfold Artifact.ofBytes? at holds
  cases decoded : Store.decode store.depth target bytes with
  | error e => simp [decoded] at holds
  | ok document =>
    cases found : Artifact.decode document <;> simp_all [Except.toOption]

theorem loadCause?_of_decode {disk : Disk} {store : Store} {target : Text × SourceUnit}
    {bytes : Bytes} {fault : Fault} (read : store.read disk target.1 = .ok bytes)
    (broken : Store.decode store.depth target.1 bytes = .error (.fault fault)) :
    loadCause? disk store target = some (.fault fault) := by
  rw [loadCause?, findArtifact, Store.readJson_of_read read, broken]

namespace GraphData

def addAll (data : GraphData) (units : List (SourceUnit × Artifact)) : GraphData :=
  units.foldl (fun data (unit, artifact) => data.add unit artifact) data

theorem outcome_loadOne (disk : Disk) (store : Store) (data : GraphData)
    (target : Text × SourceUnit) (log : Log) :
    Logged.outcome (loadOne disk store data target.1 target.2) log =
      match loadFailure? disk store target with
      | some failure => .error failure
      | none => .ok (data.addAll (loaded? disk store target).toList) := by
  unfold loadOne loadFailure? loadCause? loaded?
  cases findArtifact disk store target.1 with
  | ok found => cases found <;> rfl
  | error cause => split <;> simp_all [loadFailure]

theorem outcome_foldlM_loadOne (disk : Disk) (store : Store) (targets : List (Text × SourceUnit))
    (data : GraphData) (log : Log) :
    Logged.outcome (targets.foldlM
        (fun data (target, unit) => loadOne disk store data target unit) data) log =
      match targets.findSome? (loadFailure? disk store) with
      | some failure => .error failure
      | none => .ok (data.addAll (targets.filterMap (loaded? disk store))) := by
  induction targets generalizing data log with
  | nil => rfl
  | cons target rest ih =>
    rw [List.foldlM_cons, Logged.outcome_bind, outcome_loadOne, List.findSome?_cons,
      List.filterMap_cons]
    cases failure : loadFailure? disk store target with
    | some failure => rfl
    | none =>
      simp only [Except.bind]
      rw [ih]
      cases found : loaded? disk store target <;> simp [addAll]

theorem outcome_load (disk : Disk) (store : Store) (rules : List Rule) (log : Log) :
    Logged.outcome (load disk store rules) log =
      match (rules.flatMap Rule.artifacts).findSome? (loadFailure? disk store) with
      | some failure => .error failure
      | none => .ok (addAll ⟨[], []⟩ (loaded disk store rules)) :=
  outcome_foldlM_loadOne disk store _ _ log

theorem outcome_load_eq_ok {disk : Disk} {store : Store} {rules : List Rule} {log : Log}
    {data : GraphData} (h : Logged.outcome (load disk store rules) log = .ok data) :
    data = addAll ⟨[], []⟩ (loaded disk store rules) := by
  rw [outcome_load] at h
  split at h
  · simp at h
  · exact (Except.ok.inj h).symm

theorem outcome_load_of_found {disk : Disk} {store : Store} {rules : List Rule}
    {units : List (SourceUnit × Artifact)}
    (found : List.Forall₂ (fun target unit => target.2 = unit.1 ∧
        findArtifact disk store target.1 = .ok (.artifact unit.2))
      (rules.flatMap Rule.artifacts) units)
    (log : Log) :
    Logged.outcome (load disk store rules) log = .ok (addAll ⟨[], []⟩ units) := by
  have all : (rules.flatMap Rule.artifacts).findSome? (loadFailure? disk store) = none ∧
      loaded disk store rules = units := by
    rw [loaded]
    generalize rules.flatMap Rule.artifacts = targets at found
    induction found with
    | nil => exact ⟨rfl, rfl⟩
    | @cons target unit targets units first _ ih =>
      obtain ⟨same, found⟩ := first
      have readable : loadFailure? disk store target = none := by
        rw [loadFailure?, loadCause?, found]
        rfl
      have here : loaded? disk store target = some unit := by
        rw [loaded?, found, same]
      rw [List.findSome?_cons, readable, List.filterMap_cons_some here]
      exact ⟨ih.1, congrArg _ ih.2⟩
  rw [outcome_load, all.1, all.2]

theorem artifacts_addAll (data : GraphData) (units : List (SourceUnit × Artifact)) :
    (data.addAll units).artifacts =
      data.artifacts ++ units.map fun found => found.2.normalize found.1 := by
  induction units generalizing data with
  | nil => simp [addAll]
  | cons first rest ih =>
    change ((data.add first.1 first.2).addAll rest).artifacts = _
    rw [ih]
    simp [add]

def refs (data : GraphData) : List Reference := data.artifacts.flatMap Artifact.refs

def defs (data : GraphData) : List Definition := data.artifacts.flatMap Artifact.defs

theorem refs_addAll (units : List (SourceUnit × Artifact)) :
    (addAll ⟨[], []⟩ units).refs = units.flatMap fun found => (found.2.normalize found.1).refs := by
  rw [refs, artifacts_addAll, List.nil_append, List.flatMap_map]

theorem defs_addAll (units : List (SourceUnit × Artifact)) :
    (addAll ⟨[], []⟩ units).defs = units.flatMap fun found => (found.2.normalize found.1).defs := by
  rw [defs, artifacts_addAll, List.nil_append, List.flatMap_map]

theorem mem_addKey {keys : List DefKey} {key other : DefKey} :
    key ∈ addKey keys other ↔ key ∈ keys ∨ key = other := by
  unfold addKey
  split
  · next known =>
    constructor
    · exact .inl
    · rintro (inside | rfl)
      · exact inside
      · simpa using known
  · simp

theorem mem_foldl_addKey {keys more : List DefKey} {key : DefKey} :
    key ∈ more.foldl addKey keys ↔ key ∈ keys ∨ key ∈ more := by
  induction more generalizing keys with
  | nil => simp
  | cons first rest ih => rw [List.foldl_cons, ih, mem_addKey, List.mem_cons, or_assoc]

theorem mem_keys_addAll {data : GraphData} {units : List (SourceUnit × Artifact)} {key : DefKey} :
    key ∈ (data.addAll units).keys ↔
      key ∈ data.keys ∨ ∃ unit artifact, (unit, artifact) ∈ units ∧
        ∃ d ∈ artifact.defs, d.key.normalize unit = key := by
  induction units generalizing data with
  | nil => simp [addAll]
  | cons first rest ih =>
    obtain ⟨unit, artifact⟩ := first
    change key ∈ ((data.add unit artifact).addAll rest).keys ↔ _
    rw [ih, add, mem_foldl_addKey, List.mem_map]
    constructor
    · rintro ((known | ⟨d, inside, same⟩) | ⟨v, b, inside, d⟩)
      · exact .inl known
      · exact .inr ⟨unit, artifact, by simp, d, inside, same⟩
      · exact .inr ⟨v, b, List.mem_cons_of_mem _ inside, d⟩
    · rintro (known | ⟨v, b, inside, d, defined, same⟩)
      · exact .inl (.inl known)
      · rcases List.mem_cons.mp inside with first | inside
        · obtain ⟨rfl, rfl⟩ := Prod.mk.inj first
          exact .inl (.inr ⟨d, defined, same⟩)
        · exact .inr ⟨v, b, inside, d, defined, same⟩

end GraphData
end IndexCoverage
