import IndexCoverage.Disk.Resolve
import IndexCoverage.Proofs.Disk.Walk

/-! Absolute paths of plain names on which there are no links. Such a path is the place that it
leads to. -/

namespace IndexCoverage

theorem Node.walk?_append (node : Node) (names more : List Text) :
    node.walk? (names ++ more) = (node.walk? names).bind (walk? more) := by
  induction names generalizing node with
  | nil => rfl
  | cons name rest ih =>
    rw [List.cons_append, walk?, walk?]
    split <;> first | rfl | exact ih _

theorem Node.walk?_ne_link {node target : Node} {names : List Text} {name : Text}
    (walk : node.walk? (names ++ [name]) = some target) (text : Text) : target ≠ .link text := by
  rw [walk?_append, Option.bind_eq_some_iff] at walk
  obtain ⟨middle, -, walk⟩ := walk
  obtain ⟨entries, next, -, -, noLink, same⟩ := walk?_cons walk
  obtain rfl : next = target := Option.some.inj same
  exact noLink text

namespace Disk

/-- The node lies at a place: the names lead to it from entry to entry, and the system takes
them and lets them pass. -/
structure LiesAt (disk : Disk) (names : List Text) (node : Node) : Prop where
  walk : disk.top.walk? names = some node
  enter : disk.isOpen [] names = true
  plain : ∀ name ∈ names, isPlainName name = true
  named : names.findSome? badName? = none
  accepted : refused? (Path.ofPlace names).text = none

variable {disk : Disk} {names : List Text} {node : Node}

theorem LiesAt.find (lies : disk.LiesAt names node) :
    disk.find (Path.ofPlace names) = .ok (names, node) :=
  find_of_walk lies.accepted rfl lies.enter lies.plain lies.walk

theorem LiesAt.holds (lies : disk.LiesAt names node) (test : Node → Bool) :
    disk.holds test (Path.ofPlace names) = .ok (test node) := by
  rw [Disk.holds, lies.find]

theorem LiesAt.follow_link {entries : List (Text × Node)} {target : Text}
    (lies : disk.LiesAt names (.dir entries)) (links : Nat) (name : Text) (enter : (disk.rights names).enter = true)
    (plain : isPlainName name = true) (found : entries.lookup name = some (.link target)) :
    disk.follow true (links + 1) [] (names ++ [name]) =
      disk.follow true links (startOfLink names target) (Text.splitOn Path.slash target) := by
  rw [follow_append [name] rfl lies.enter lies.plain lies.walk, List.nil_append,
    Disk.follow_link (Node.at?_of_walk lies.walk) enter plain found, List.append_nil]

theorem linkAt?_of_walk {name : Text} (enter : disk.isOpen [] (names ++ [name]) = true)
    (plain : ∀ other ∈ names ++ [name], isPlainName other = true)
    (walk : disk.top.walk? (names ++ [name]) = some node) :
    disk.linkAt? (Path.ofPlace (names ++ [name])) = none := by
  have leads : disk.follow false maxLinks (disk.startOf (Path.ofPlace (names ++ [name])))
      (Path.ofPlace (names ++ [name])).parts = .ok (names ++ [name], node) :=
    follow_of_walk rfl enter plain walk
  rw [linkAt?, leads]
  cases node with
  | link text => exact absurd rfl (Node.walk?_ne_link walk text)
  | file content => split <;> simp_all
  | dir entries => split <;> simp_all

theorem wayFrom_of_walk {depth : Nat} {met : Met} {done : List Text}
    (enter : disk.isOpen [] (done ++ names) = true)
    (plain : ∀ name ∈ done ++ names, isPlainName name = true)
    (walk : disk.top.walk? (done ++ names) = some node) :
    disk.wayFrom depth met (Path.ofPlace done) names =
      (.ok (Path.ofPlace (done ++ names)), met) := by
  induction names generalizing done with
  | nil => rw [wayFrom, List.append_nil]
  | cons name rest ih =>
    obtain ⟨nonempty, notDot, notDots, -⟩ := isPlainName_iff.mp (plain name (by simp))
    rw [List.append_cons] at enter plain walk ⊢
    have noLink : disk.linkAt? ((Path.ofPlace done).child name) = none := by
      have start := walk
      rw [Node.walk?_append, Option.bind_eq_some_iff] at start
      obtain ⟨next, start, -⟩ := start
      exact linkAt?_of_walk (isOpen_append.mp enter).1
        (fun other inside => plain other (List.mem_append_left _ inside)) start
    rw [wayFrom]
    simp only [nonempty, notDot, notDots, noLink, if_false]
    exact ih enter plain walk

theorem goUp_of_plain {place : List Text} (plain : ∀ name ∈ names, isPlainName name = true) :
    goUp place names = place ++ names := by
  induction names generalizing place with
  | nil => rw [goUp, List.append_nil]
  | cons name rest ih =>
    obtain ⟨-, -, notDots, -⟩ := isPlainName_iff.mp (plain name (List.mem_cons_self ..))
    rw [goUp, if_neg notDots, ih fun other inside => plain other (List.mem_cons_of_mem _ inside),
      ← List.append_cons]

theorem resolve_of_way {goal : Path} {met : Met} (named : names.findSome? badName? = none)
    (way : disk.wayFrom maxLinkDepth [] (Path.ofPlace []) names = (.ok goal, met)) :
    disk.resolve (Path.ofPlace names) = .ok (disk.fromTop goal) := by
  have start : (⟨if (Path.ofPlace names).isAbsolute then .root else .relative, []⟩ : Path) =
      Path.ofPlace [] := rfl
  have parts : (Path.ofPlace names).parts = names := rfl
  unfold Disk.resolve
  simp only [start]
  rw [parts, named, way]

theorem LiesAt.resolve (lies : disk.LiesAt names node) :
    disk.resolve (Path.ofPlace names) = .ok (Path.ofPlace names) := by
  have walk : disk.top.walk? ([] ++ names) = some node := lies.walk
  have way : disk.wayFrom maxLinkDepth [] (Path.ofPlace []) names =
      (.ok (Path.ofPlace names), []) := wayFrom_of_walk lies.enter lies.plain walk
  have top : disk.fromTop (Path.ofPlace names) = Path.ofPlace names := by
    change (⟨.root, goUp [] names⟩ : Path) = _
    rw [goUp_of_plain lies.plain, List.nil_append]
    rfl
  rw [resolve_of_way lies.named way, top]

theorem LiesAt.locate (lies : disk.LiesAt names node) {text : Text}
    (spelled : Path.ofText text = Path.ofPlace names) :
    disk.locate text = .ok (Path.ofPlace names) := by
  unfold Disk.locate
  rw [spelled]
  exact lies.resolve

/-- The names lead to a directory that can be entered, and each is the name of an entry. -/
structure HasDir (disk : Disk) (names : List Text) : Prop where
  lies : ∃ entries, disk.LiesAt names (.dir entries)
  enter : (disk.rights names).enter = true
  whole : ∀ name ∈ names, Path.slash ∉ name

theorem HasDir.spelled (dir : disk.HasDir names) :
    Path.ofText (Path.ofPlace names).text = Path.ofPlace names := by
  obtain ⟨entries, lies⟩ := dir.lies
  refine Path.ofText_text_ofPlace fun name inside => ?_
  obtain ⟨nonempty, notDot, -, -⟩ := isPlainName_iff.mp (lies.plain name inside)
  exact ⟨nonempty, notDot, dir.whole name inside⟩

theorem HasDir.exists? (dir : disk.HasDir names) :
    disk.exists? (Path.ofPlace names) = .ok true := by
  obtain ⟨entries, lies⟩ := dir.lies
  exact lies.holds _

theorem HasDir.resolve (dir : disk.HasDir names) :
    disk.resolve (Path.ofPlace names) = .ok (Path.ofPlace names) := by
  obtain ⟨entries, lies⟩ := dir.lies
  exact lies.resolve

theorem HasDir.locate (dir : disk.HasDir names) :
    disk.locate (Path.ofPlace names).text = .ok (Path.ofPlace names) := by
  obtain ⟨entries, lies⟩ := dir.lies
  exact lies.locate dir.spelled

end Disk
end IndexCoverage
