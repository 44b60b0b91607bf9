import IndexCoverage.Yaml.Atom
import IndexCoverage.Yaml.Node

/-! The values of a document's nodes. They are found collection by collection,
the outermost first: those inside wait until the scalars of the ones before them
have been read, so that the fault found first is the one that counts. -/

namespace IndexCoverage.Yaml

inductive Value where
  | atom (a : Atom)
  | list (items : List Nat)
  /-- A list of pairs. -/
  | pairs (fields : List (Nat × Nat))
  | set (members : List Atom)
  | map (fields : List (Atom × Nat))

/-- The nodes of a document, the values found so far by number, and the
collections whose parts have still to be looked at. -/
structure Building where
  nodes : Array Node
  values : Array (Option Value)
  waiting : List Nat
  /-- How many mappings may be gone into for the one that refers to them. -/
  depth : Nat

abbrev Build := StateT Building (Except Fault)

namespace Build

def node (number : Nat) : Build Node := do
  match (← get).nodes[number]? with
  | some node => return node
  | none => throw .yaml

def setNode (number : Nat) (node : Node) : Build Unit :=
  modify fun s => { s with nodes := s.nodes.setIfInBounds number node }

def setValue (number : Nat) (value : Value) : Build Unit :=
  modify fun s => { s with values := s.values.setIfInBounds number (some value) }

def standIn? (fields : List (Nat × Nat)) : Build (Option Nat) := do
  for (key, value) in fields do
    if (← node key).tag = .value then return some value
  return none

/-- The text of a node that has to be a scalar; a mapping may say which of its
values stands for it, be it one that holds itself. -/
def scalarText (depth number : Nat) : Build Text := do
  match (← node number).content with
  | .scalar text => return text
  | .sequence _ => throw .yaml
  | .mapping fields =>
    match ← standIn? fields, depth with
    | none, _ => throw .yaml
    | some _, 0 => throw .nodesTooDeep
    | some value, depth + 1 => scalarText depth value

def isScalar (number : Nat) : Build Bool := do
  return (← node number).content matches .scalar _

/-- Find the value of a node. The parts of a collection come later. A date has to be
written as a scalar, and not as a mapping in which one stands for it. -/
def visit (number : Nat) : Build Unit := do
  if ((← get).values[number]?.bind id).isSome then return
  let later (value : Value) : Build Unit := do
    setValue number value
    modify fun s => { s with waiting := s.waiting ++ [number] }
  match (← node number).tag with
  | .omap => later (.pairs [])
  | .pairs => later (.pairs [])
  | .set => later (.set [])
  | .seq => later (.list [])
  | .map => later (.map [])
  | tag =>
    if tag = .merge ∨ tag = .value ∨ tag = .other then throw .yaml
    let text ← scalarText (← get).depth number
    if tag = .timestamp && !(← isScalar number) then throw .notText
    match Atom.read tag text with
    | .ok atom => setValue number (.atom atom)
    | .error fault => throw fault

def fields (number : Nat) : Build (List (Nat × Nat)) := do
  match (← node number).content with
  | .mapping fields => return fields
  | _ => throw .yaml

/-- The mappings that a merge key names, the one that counts least first. -/
def mergedOf (number : Nat) : Build (List Nat) := do
  match (← node number).content with
  | .mapping _ => return [number]
  | .sequence items => return items.reverse
  | .scalar _ => throw .yaml

/-- Put the fields of the mappings that are to be merged in front of a mapping's
own fields. Its merge keys are gone before those are looked at, so that a mapping
can be merged into itself. -/
def flatten (depth number : Nat) : Build Unit := do
  match depth with
  | 0 => throw .nodesTooDeep
  | depth + 1 =>
    let before ← fields number
    let mut own := []
    let mut merges := []
    for (key, value) in before do
      let keyNode ← node key
      if keyNode.tag = .merge then merges := merges ++ [value]
      else
        if keyNode.tag = .value then setNode key { keyNode with tag := .str }
        own := own ++ [(key, value)]
    setNode number { (← node number) with content := .mapping own }
    let mut merged := []
    for value in merges do
      let parts ← mergedOf value
      for part in parts.reverse do
        let _ ← fields part
        flatten depth part
      for part in parts do
        merged := merged ++ (← fields part)
    setNode number { (← node number) with content := .mapping (merged ++ own) }

def key (number : Nat) : Build Atom := do
  visit number
  match (← get).values[number]?.bind id with
  | some (.atom atom) => return atom
  | _ => throw .yaml

def mapFields (number : Nat) : Build (List (Atom × Nat)) := do
  let _ ← fields number
  flatten (← get).depth number
  (← fields number).mapM fun (part, value) => do
    let atom ← key part
    visit value
    return (atom, value)

def pairsOf (number : Nat) : Build (List (Nat × Nat)) := do
  match (← node number).content with
  | .sequence items =>
    items.mapM fun item => do
      match ← fields item with
      | [(part, value)] =>
        visit part
        visit value
        return (part, value)
      | _ => throw .yaml
  | _ => throw .yaml

def complete (number : Nat) : Build Unit := do
  match (← node number).tag with
  | .seq =>
    match (← node number).content with
    | .sequence items =>
      items.forM visit
      setValue number (.list items)
    | _ => throw .yaml
  | .map => setValue number (.map (← mapFields number))
  | .set => setValue number (.set ((← mapFields number).map Prod.fst))
  | _ => setValue number (.pairs (← pairsOf number))

/-- Look at the collections that wait. Each waits once, so that `fuel`, the
number of nodes, is enough. -/
def completeAll (fuel : Nat) : Build Unit := do
  match fuel, (← get).waiting with
  | _, [] => return
  | 0, _ => throw .yaml
  | fuel + 1, number :: waiting =>
    modify fun s => { s with waiting }
    complete number
    completeAll fuel

end Build

/-- The values of a document by number, and the number of the outermost. -/
structure Graph where
  values : Array (Option Value)
  root : Nat

def Graph.value? (graph : Graph) (number : Nat) : Option Value := graph.values[number]?.bind id

/-- The values, where nodes may nest up to `depth`. To go into a mapping takes one
call, and a node within another takes two. -/
def Document.values (depth : Nat) (document : Document) (root : Nat) : Except Fault Graph := do
  let count := document.nodes.size
  let start : Building := ⟨document.nodes, Array.replicate count none, [], 2 * depth⟩
  let (_, built) ← (do Build.visit root; Build.completeAll (count + 1) : Build Unit).run start
  return ⟨built.values, root⟩

/-- The values of a text that holds one document; none if it is empty. -/
def read (depth : Nat) (text : List Char) : Except Fault (Option Graph) := do
  let document ← Document.ofText depth text
  match document.root with
  | some root => return some (← document.values depth root)
  | none => return none

end IndexCoverage.Yaml
