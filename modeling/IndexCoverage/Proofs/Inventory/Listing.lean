import IndexCoverage.Proofs.Disk.Walk
import IndexCoverage.Proofs.Inventory.Order
import IndexCoverage.Proofs.Text.Appearance

/-! What a walk comes to: every entry below a directory that counts as a file, if no hidden
directory is on the way to it and each directory there can be listed; and the entries that count as
directories where the walk may go no further. Each comes once, in the order of the walk. -/

namespace IndexCoverage

def isEntryName (name : Text) : Bool := !name.contains Path.slash && (Disk.badName? name).isNone

theorem isEntryName_iff {name : Text} :
    isEntryName name = true ↔ Path.slash ∉ name ∧ Disk.badName? name = none := by
  simp [isEntryName]

namespace Node

mutual

/-- Every directory from this node down has different names for its entries, as they can be. -/
def isWellNamed : Node → Bool
  | dir entries => decide (entries.map Prod.fst).Nodup && areWellNamed entries
  | _ => true

def areWellNamed : List (Text × Node) → Bool
  | [] => true
  | (name, node) :: rest => isEntryName name && isWellNamed node && areWellNamed rest

end

theorem areWellNamed_iff {entries : List (Text × Node)} : areWellNamed entries = true ↔
    ∀ name node, (name, node) ∈ entries → isEntryName name = true ∧ node.isWellNamed = true := by
  induction entries with
  | nil => simp [areWellNamed]
  | cons entry rest ih =>
    obtain ⟨name, node⟩ := entry
    rw [areWellNamed, Bool.and_eq_true, Bool.and_eq_true, ih]
    simp only [List.mem_cons, Prod.mk.injEq]
    constructor
    · rintro ⟨first, others⟩ other found (⟨rfl, rfl⟩ | inside)
      · exact first
      · exact others other found inside
    · exact fun h => ⟨h name node (.inl ⟨rfl, rfl⟩), fun other found inside =>
        h other found (.inr inside)⟩

theorem isWellNamed_dir_iff {entries : List (Text × Node)} :
    (dir entries).isWellNamed = true ↔ (entries.map Prod.fst).Nodup ∧
      ∀ name node, (name, node) ∈ entries → isEntryName name = true ∧ node.isWellNamed = true := by
  rw [isWellNamed, Bool.and_eq_true, decide_eq_true_eq, areWellNamed_iff]

theorem isWellNamed_at? {node found : Node} {place : List Text} (named : node.isWellNamed = true)
    (here : node.at? place = some found) : found.isWellNamed = true := by
  induction place generalizing node with
  | nil => rwa [← Option.some.inj here]
  | cons name rest ih =>
    rw [at?, Option.bind_eq_some_iff] at here
    obtain ⟨next, child, here⟩ := here
    cases node with
    | file content => cases child
    | link target => cases child
    | dir entries =>
      have inside : (name, next) ∈ entries := mem_of_lookup_eq_some child
      exact ih ((isWellNamed_dir_iff.mp named).2 name next inside).2 here

end Node

/-- The names that tell where in its order the walk comes to a stop. A directory that is too deep
is in the place of what would be below it. -/
def Stop.rank (stop : Stop) : List Text :=
  if stop.tooDeep then stop.names ++ [[]] else stop.names

def Stop.Earlier (stop other : Stop) : Prop := Precedes stop.rank other.rank

instance : Std.Asymm Stop.Earlier := ⟨fun _ _ early => early.asymm⟩

theorem Stop.rank_within (name : Text) (stop : Stop) :
    (stop.within name).rank = name :: stop.rank := by
  obtain ⟨names, tooDeep⟩ := stop
  cases tooDeep <;> rfl

namespace Disk

variable {disk : Disk} {lists : List Text → Bool} {depth : Nat} {place : List Text}

def branchAt (disk : Disk) (lists : List Text → Bool) (depth : Nat) (place : List Text)
    (name : Text) : Node → Branch
  | .file _ => .file
  | .link _ =>
    if !disk.leadsToDir (place ++ [name]) then .file
    else if isHidden name || depth ≠ 0 then .skipped
    else .tree [{ names := [], tooDeep := true }]
  | .dir entries =>
    if isHidden name then .skipped
    else
      match depth with
      | 0 => .tree [{ names := [], tooDeep := true }]
      | depth + 1 => .tree (disk.stops lists depth (place ++ [name]) (.dir entries))

theorem branches_eq_map (entries : List (Text × Node)) :
    disk.branches lists depth place entries =
      entries.map fun entry => (entry.1, disk.branchAt lists depth place entry.1 entry.2) := by
  induction entries with
  | nil => rfl
  | cons entry rest ih =>
    obtain ⟨name, node⟩ := entry
    cases node with
    | file content | link target => rw [branches, ih]; rfl
    | dir more => cases depth <;> rw [branches, ih] <;> rfl

theorem mem_listed {branches : List (Text × Branch)} {stop : Stop} :
    stop ∈ listed branches ↔ ∃ name branch, (name, branch) ∈ branches ∧
      (stop = ⟨[name], false⟩ ∧ branch.isFile = true ∨
        ∃ inner ∈ branch.below, stop = inner.within name) := by
  have sorted (entry : Text × Branch) : entry ∈ byName branches ↔ entry ∈ branches :=
    List.mem_mergeSort
  simp only [listed, List.mem_append, List.mem_map, List.mem_filter, List.mem_flatMap, sorted]
  constructor
  · rintro (⟨⟨name, branch⟩, ⟨inside, file⟩, rfl⟩ | ⟨⟨name, branch⟩, inside, inner, below, rfl⟩)
    · exact ⟨name, branch, inside, .inl ⟨rfl, file⟩⟩
    · exact ⟨name, branch, inside, .inr ⟨inner, below, rfl⟩⟩
  · rintro ⟨name, branch, inside, ⟨rfl, file⟩ | ⟨inner, below, rfl⟩⟩
    · exact .inl ⟨(name, branch), ⟨inside, file⟩, rfl⟩
    · exact .inr ⟨(name, branch), inside, inner, below, rfl⟩

/-- Whether an entry counts as a directory: it is one, or a link that leads to one. -/
def countsAsDir (disk : Disk) (place : List Text) : Node → Bool
  | .dir _ => true
  | .link _ => disk.leadsToDir place
  | .file _ => false

theorem isFile_branchAt {name : Text} {node : Node} :
    (disk.branchAt lists depth place name node).isFile = true ↔
      disk.countsAsDir (place ++ [name]) node = false := by
  cases node with
  | file content => exact iff_of_true rfl rfl
  | link target =>
    simp only [branchAt, countsAsDir]
    cases disk.leadsToDir (place ++ [name]) <;> cases isHidden name <;> cases depth <;>
      simp [Branch.isFile]
  | dir entries =>
    simp only [branchAt, countsAsDir]
    cases isHidden name <;> cases depth <;> simp [Branch.isFile]

/-- Below a name is what is below a directory that is not hidden, or, where the walk may go no
further, that there is one. -/
theorem mem_below_branchAt {name : Text} {node : Node} {inner : Stop} :
    inner ∈ (disk.branchAt lists depth place name node).below ↔ isHidden name = false ∧
      (inner = ⟨[], true⟩ ∧ depth = 0 ∧ disk.countsAsDir (place ++ [name]) node = true ∨
        ∃ less entries, depth = less + 1 ∧ node = .dir entries ∧
          inner ∈ disk.stops lists less (place ++ [name]) node) := by
  cases node with
  | file content => simp [branchAt, Branch.below, countsAsDir]
  | link target =>
    simp only [branchAt, countsAsDir]
    cases disk.leadsToDir (place ++ [name]) <;> cases isHidden name <;> cases depth <;>
      simp [Branch.below]
  | dir entries =>
    simp only [branchAt, countsAsDir]
    cases isHidden name <;> cases depth <;> simp [Branch.below]

/-- The walk goes on from a place to where directories lead: they are no more than it may go into,
and each can be listed. -/
structure Reaches (lists : List Text → Bool) (depth : Nat) (place dirs : List Text) : Prop where
  within : dirs.length ≤ depth
  listed : ∀ front, front <+: dirs → lists (place ++ front) = true

theorem reaches_nil : Reaches lists depth place [] ↔ lists place = true := by
  refine ⟨fun reaches => ?_, fun here => ⟨Nat.zero_le _, fun front start => ?_⟩⟩
  · simpa using reaches.listed [] List.nil_prefix
  · rwa [List.prefix_nil.mp start, List.append_nil]

theorem reaches_cons {dir : Text} {dirs : List Text} :
    Reaches lists depth place (dir :: dirs) ↔ lists place = true ∧
      ∃ less, depth = less + 1 ∧ Reaches lists less (place ++ [dir]) dirs := by
  constructor
  · rintro ⟨within, listed⟩
    refine ⟨by simpa using listed [] List.nil_prefix, depth - 1, ?_, ?_, fun front start => ?_⟩
    · exact (Nat.succ_pred_eq_of_pos (Nat.zero_lt_of_lt within)).symm
    · exact Nat.le_pred_of_lt within
    · rw [List.append_assoc, List.singleton_append]
      exact listed _ (List.prefix_cons_inj dir |>.mpr start)
  · rintro ⟨here, less, rfl, within, listed⟩
    refine ⟨Nat.succ_le_succ within, fun front start => ?_⟩
    cases front with
    | nil => rwa [List.append_nil]
    | cons first front =>
      obtain ⟨rfl, inner⟩ := List.cons_prefix_cons.mp start
      rw [← List.singleton_append, ← List.append_assoc]
      exact listed front inner

/-- Below the directory at a place, other directories lead to one with an entry of this name, and
none of them is hidden. -/
structure Entry (tree : Node) (dirs : List Text) (name : Text) (node : Node) : Prop where
  shown : ∀ dir ∈ dirs, isHidden dir = false
  found : ∃ entries, tree.walk? dirs = some (.dir entries) ∧ entries.lookup name = some node

theorem Entry.exists_dir {tree : Node} {dirs : List Text} {name : Text} {node : Node}
    (h : Entry tree dirs name node) : ∃ entries, tree = .dir entries := by
  obtain ⟨-, entries, walk, -⟩ := h
  cases dirs with
  | nil => exact ⟨entries, Option.some.inj walk⟩
  | cons dir dirs =>
    obtain ⟨others, next, same, -⟩ := Node.walk?_cons walk
    exact ⟨others, same⟩

theorem entry_nil {entries : List (Text × Node)} {name : Text} {node : Node} :
    Entry (.dir entries) [] name node ↔ entries.lookup name = some node := by
  constructor
  · rintro ⟨-, _, walk, here⟩
    obtain rfl := Node.dir.inj (Option.some.inj walk)
    exact here
  · exact fun here => ⟨by simp, entries, rfl, here⟩

theorem entry_cons {entries : List (Text × Node)} {dir name : Text} {dirs : List Text}
    {node : Node} :
    Entry (.dir entries) (dir :: dirs) name node ↔ ∃ more,
      entries.lookup dir = some (.dir more) ∧ isHidden dir = false ∧
        Entry (.dir more) dirs name node := by
  constructor
  · rintro ⟨shown, others, walk, here⟩
    obtain ⟨_, next, same, found, noLink, walk⟩ := Node.walk?_cons walk
    obtain rfl := Node.dir.inj same
    cases next with
    | link target => exact absurd rfl (noLink target)
    | file content => cases dirs <;> simp [Node.walk?, Node.child?] at walk
    | dir more =>
      refine ⟨more, found, shown dir (List.mem_cons_self ..), ?_, others, walk, here⟩
      exact fun other inside => shown other (List.mem_cons_of_mem _ inside)
  · rintro ⟨more, found, unhidden, shown, others, walk, here⟩
    refine ⟨List.forall_mem_cons.mpr ⟨unhidden, shown⟩, others, ?_, here⟩
    rw [Node.walk?, Node.child?, found]
    exact walk

/-- The walk comes to an entry as to a file if it counts as no directory. As to a directory that is
too deep it comes to one that is not hidden, where it may go no further. -/
def Comes (disk : Disk) (depth : Nat) (place : List Text) (name : Text) (node : Node)
    (tooDeep : Bool) : Prop :=
  disk.countsAsDir (place ++ [name]) node = tooDeep ∧
    (tooDeep = true → depth = 0 ∧ isHidden name = false)

theorem mem_stops_cons {entries : List (Text × Node)} (distinct : (entries.map Prod.fst).Nodup)
    {name : Text} {rest : List Text} {tooDeep : Bool} :
    ⟨name :: rest, tooDeep⟩ ∈ disk.stops lists depth place (.dir entries) ↔
      lists place = true ∧ ∃ node, entries.lookup name = some node ∧
        (rest = [] ∧ disk.Comes depth place name node tooDeep ∨
          isHidden name = false ∧ ∃ less more, depth = less + 1 ∧ node = .dir more ∧
            ⟨rest, tooDeep⟩ ∈ disk.stops lists less (place ++ [name]) node) := by
  have found (branch : Branch) : (name, branch) ∈ disk.branches lists depth place entries ↔
      ∃ node, entries.lookup name = some node ∧
        disk.branchAt lists depth place name node = branch := by
    simp [branches_eq_map, lookup_eq_some_iff_mem distinct]
  rw [stops]
  cases listable : lists place with
  | false => simp
  | true =>
    rw [if_pos rfl, mem_listed, eq_self, true_and]
    constructor
    · rintro ⟨other, branch, inside, ⟨same, file⟩ | ⟨⟨names, kind⟩, below, same⟩⟩
      · obtain ⟨⟨rfl, rfl⟩, rfl⟩ := by simpa using same
        obtain ⟨node, here, rfl⟩ := (found branch).mp inside
        exact ⟨node, here, .inl ⟨rfl, isFile_branchAt.mp file, by simp⟩⟩
      · obtain ⟨⟨rfl, rfl⟩, rfl⟩ := by simpa [Stop.within] using same
        obtain ⟨node, here, rfl⟩ := (found branch).mp inside
        obtain ⟨unhidden, ⟨end_, last, dir⟩ | deeper⟩ := mem_below_branchAt.mp below
        · obtain ⟨rfl, rfl⟩ := Stop.mk.inj end_
          exact ⟨node, here, .inl ⟨rfl, dir, fun _ => ⟨last, unhidden⟩⟩⟩
        · exact ⟨node, here, .inr ⟨unhidden, deeper⟩⟩
    · rintro ⟨node, here, ⟨rfl, kind, last⟩ | ⟨unhidden, deeper⟩⟩
      · refine ⟨name, _, (found _).mpr ⟨node, here, rfl⟩, ?_⟩
        cases tooDeep with
        | false => exact .inl ⟨rfl, isFile_branchAt.mpr kind⟩
        | true =>
          obtain ⟨none, unhidden⟩ := last rfl
          exact .inr ⟨⟨[], true⟩, mem_below_branchAt.mpr ⟨unhidden, .inl ⟨rfl, none, kind⟩⟩, rfl⟩
      · exact ⟨name, _, (found _).mpr ⟨node, here, rfl⟩,
          .inr ⟨⟨rest, tooDeep⟩, mem_below_branchAt.mpr ⟨unhidden, .inr deeper⟩, rfl⟩⟩

theorem ne_nil_of_mem_stops {tree : Node} {stop : Stop}
    (h : stop ∈ disk.stops lists depth place tree) : stop.names ≠ [] := by
  cases tree with
  | file content | link target => simp [stops] at h
  | dir entries =>
    rw [stops] at h
    split at h
    · obtain ⟨name, branch, -, ⟨rfl, -⟩ | ⟨inner, -, rfl⟩⟩ := mem_listed.mp h <;>
        simp [Stop.within]
    · simp at h

/-- The walk of a tree comes to all that is there to come to where it gets. -/
theorem mem_stops_iff {tree : Node} (named : tree.isWellNamed = true) {names : List Text}
    {tooDeep : Bool} :
    ⟨names, tooDeep⟩ ∈ disk.stops lists depth place tree ↔
      ∃ dirs name node, names = dirs ++ [name] ∧ Entry tree dirs name node ∧
        Reaches lists depth place dirs ∧
        disk.Comes (depth - dirs.length) (place ++ dirs) name node tooDeep := by
  induction names generalizing depth place tree with
  | nil => exact iff_of_false (fun inside => ne_nil_of_mem_stops inside rfl) (by simp)
  | cons first rest ih =>
    cases tree with
    | file content | link target =>
      refine iff_of_false (by simp [stops]) ?_
      rintro ⟨dirs, name, node, -, entry, -⟩
      obtain ⟨entries, same⟩ := entry.exists_dir
      cases same
    | dir entries =>
      obtain ⟨distinct, each⟩ := Node.isWellNamed_dir_iff.mp named
      rw [mem_stops_cons distinct]
      constructor
      · rintro ⟨listable, node, here, ⟨rfl, comes⟩ | ⟨unhidden, less, more, rfl, rfl, below⟩⟩
        · exact ⟨[], first, node, rfl, entry_nil.mpr here, reaches_nil.mpr listable,
            by simpa using comes⟩
        · have inner := (each first _ (mem_of_lookup_eq_some here)).2
          obtain ⟨dirs, name, node, rfl, entry, reaches, comes⟩ := (ih inner).mp below
          refine ⟨first :: dirs, name, node, rfl, entry_cons.mpr ⟨more, here, unhidden, entry⟩,
            reaches_cons.mpr ⟨listable, less, rfl, reaches⟩, ?_⟩
          simpa using comes
      · rintro ⟨dirs, name, node, same, entry, reaches, comes⟩
        cases dirs with
        | nil =>
          obtain ⟨rfl, rfl⟩ := List.cons.inj same
          exact ⟨reaches_nil.mp reaches, node, entry_nil.mp entry, .inl ⟨rfl, by simpa using comes⟩⟩
        | cons dir dirs =>
          obtain ⟨rfl, rfl⟩ := List.cons.inj same
          obtain ⟨more, here, unhidden, entry⟩ := entry_cons.mp entry
          obtain ⟨listable, less, rfl, further⟩ := reaches_cons.mp reaches
          have inner := (each first _ (mem_of_lookup_eq_some here)).2
          have below := (ih inner).mpr ⟨dirs, name, node, rfl, entry, further, by simpa using comes⟩
          exact ⟨listable, .dir more, here, .inr ⟨unhidden, less, more, rfl, rfl, below⟩⟩

theorem isEntryName_of_mem_stops {tree : Node} (named : tree.isWellNamed = true)
    {names : List Text} {tooDeep : Bool}
    (h : ⟨names, tooDeep⟩ ∈ disk.stops lists depth place tree) :
    ∀ name ∈ names, isEntryName name = true := by
  induction names generalizing depth place tree with
  | nil => simp
  | cons first rest ih =>
    cases tree with
    | file content | link target => simp [stops] at h
    | dir entries =>
      obtain ⟨distinct, each⟩ := Node.isWellNamed_dir_iff.mp named
      obtain ⟨-, node, here, below⟩ := (mem_stops_cons distinct).mp h
      obtain ⟨valid, inner⟩ := each first node (mem_of_lookup_eq_some here)
      refine List.forall_mem_cons.mpr ⟨valid, ?_⟩
      rcases below with ⟨rfl, -⟩ | ⟨-, less, more, rfl, rfl, below⟩
      · simp
      · exact ih inner below

theorem pairwise_byName {branches : List (Text × Branch)}
    (distinct : (branches.map Prod.fst).Nodup) :
    (byName branches).Pairwise fun a b => Text.before a.1 b.1 = true := by
  have sorted : (byName branches).Pairwise fun a b => Text.atMost a.1 b.1 = true := by
    apply List.pairwise_mergeSort
    · exact fun a b c => Text.atMost_trans
    · exact fun a b => Text.atMost_total a.1 b.1
  have apart : (byName branches).Pairwise fun a b => a.1 ≠ b.1 := by
    have perm : (byName branches).Perm branches := List.mergeSort_perm ..
    exact List.pairwise_map.mp ((perm.map Prod.fst).nodup_iff.mpr distinct)
  exact (sorted.and apart).imp fun ⟨early, other⟩ => Text.before_of_atMost early other

theorem ne_nil_rank {stop : Stop} (h : stop.names ≠ []) : stop.rank ≠ [] := by
  unfold Stop.rank
  split
  · simp
  · exact h

theorem pairwise_listed {branches : List (Text × Branch)}
    (distinct : (branches.map Prod.fst).Nodup)
    (nonempty : ∀ branch ∈ branches, ∀ stop ∈ branch.2.below, stop.rank ≠ [])
    (ordered : ∀ branch ∈ branches, branch.2.below.Pairwise Stop.Earlier) :
    (listed branches).Pairwise Stop.Earlier := by
  have sorted := pairwise_byName distinct
  have inside (branch : Text × Branch) (there : branch ∈ byName branches) : branch ∈ branches :=
    List.mem_mergeSort.mp there
  unfold Stop.Earlier at ordered ⊢
  refine List.pairwise_append.mpr ⟨?files, List.pairwise_flatMap.mpr ⟨?within, ?dirs⟩, ?fileFirst⟩
  case files =>
    rw [List.pairwise_map]
    exact (sorted.filter _).imp fun early => .files early
  case within =>
    intro branch there
    simp only [List.pairwise_map, Stop.rank_within]
    exact (ordered branch (inside branch there)).imp .within
  case dirs =>
    refine sorted.imp_of_mem fun here there early stop listed other also => ?_
    obtain ⟨inner, below, rfl⟩ := List.mem_map.mp listed
    obtain ⟨innerOther, belowOther, rfl⟩ := List.mem_map.mp also
    rw [Stop.rank_within, Stop.rank_within]
    exact .dirs early (nonempty _ (inside _ here) inner below)
      (nonempty _ (inside _ there) innerOther belowOther)
  case fileFirst =>
    intro stop listed other also
    obtain ⟨file, -, rfl⟩ := List.mem_map.mp listed
    obtain ⟨branch, there, also⟩ := List.mem_flatMap.mp also
    obtain ⟨inner, below, rfl⟩ := List.mem_map.mp also
    rw [Stop.rank_within]
    exact .fileFirst (nonempty _ (inside _ there) inner below)

theorem map_fst_branches (entries : List (Text × Node)) :
    (disk.branches lists depth place entries).map Prod.fst = entries.map Prod.fst := by
  simp [branches_eq_map]

theorem ne_nil_rank_of_mem_branches {entries : List (Text × Node)} {branch : Text × Branch}
    (inside : branch ∈ disk.branches lists depth place entries) {stop : Stop}
    (below : stop ∈ branch.2.below) : stop.rank ≠ [] := by
  rw [branches_eq_map, List.mem_map] at inside
  obtain ⟨entry, -, rfl⟩ := inside
  obtain ⟨-, ⟨rfl, -⟩ | ⟨less, more, -, -, deeper⟩⟩ := mem_below_branchAt.mp below
  · exact List.cons_ne_nil [] []
  · exact ne_nil_rank (ne_nil_of_mem_stops deeper)

mutual

theorem pairwise_stops (disk : Disk) (lists : List Text → Bool) (depth : Nat) (place : List Text)
    (tree : Node) (named : tree.isWellNamed = true) :
    (disk.stops lists depth place tree).Pairwise Stop.Earlier := by
  match tree with
  | .file content | .link target => exact .nil
  | .dir entries =>
    rw [Node.isWellNamed, Bool.and_eq_true, decide_eq_true_eq] at named
    rw [stops]
    split
    · refine pairwise_listed ?_ ?_ (pairwise_branches disk lists depth place entries named.2)
      · rw [map_fst_branches]
        exact named.1
      · exact fun branch inside stop => ne_nil_rank_of_mem_branches inside
    · exact .nil

theorem pairwise_branches (disk : Disk) (lists : List Text → Bool) (depth : Nat)
    (place : List Text) (entries : List (Text × Node)) (named : Node.areWellNamed entries = true) :
    ∀ branch ∈ disk.branches lists depth place entries, branch.2.below.Pairwise Stop.Earlier := by
  match entries with
  | [] => simp [branches]
  | (name, .file content) :: rest =>
    rw [Node.areWellNamed, Bool.and_eq_true] at named
    rw [branches]
    exact List.forall_mem_cons.mpr ⟨.nil, pairwise_branches disk lists depth place rest named.2⟩
  | (name, .link target) :: rest =>
    rw [Node.areWellNamed, Bool.and_eq_true] at named
    rw [branches]
    refine List.forall_mem_cons.mpr ⟨?_, pairwise_branches disk lists depth place rest named.2⟩
    dsimp only
    split
    · exact .nil
    · split
      · exact .nil
      · exact List.pairwise_singleton ..
  | (name, .dir more) :: rest =>
    rw [Node.areWellNamed, Bool.and_eq_true, Bool.and_eq_true] at named
    have others := pairwise_branches disk lists depth place rest named.2
    cases depth with
    | zero =>
      rw [branches]
      refine List.forall_mem_cons.mpr ⟨?_, others⟩
      cases isHidden name with
      | true => exact .nil
      | false => exact List.pairwise_singleton ..
    | succ depth =>
      have below := pairwise_stops disk lists depth (place ++ [name]) (.dir more) named.1.2
      rw [branches]
      refine List.forall_mem_cons.mpr ⟨?_, others⟩
      cases isHidden name with
      | true => exact .nil
      | false => exact below

end

end Disk
end IndexCoverage
