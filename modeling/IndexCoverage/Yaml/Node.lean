import IndexCoverage.Yaml.Layout
import IndexCoverage.Yaml.Tag

/-! The nodes of a YAML document, made from its tokens. Nodes have numbers, and
collections refer to their parts by number: an alias is another use of a node,
which may even lie inside itself. Nodes may nest only so far. -/

namespace IndexCoverage.Yaml

inductive Content where
  | scalar (text : Text)
  | sequence (items : List Nat)
  | mapping (fields : List (Nat × Nat))

structure Node where
  tag : Tag
  content : Content

/-- A document in the making: the tokens left, what the handles of tags stand
for, and the nodes so far with the names of some. -/
structure Draft where
  tokens : List Token
  handles : List (Text × Text)
  names : List (List Char × Nat)
  nodes : Array Node

abbrev Drafting := StateT Draft (Except Fault)

namespace Drafting

def peek : Drafting (Option Token) := do
  match (← get).tokens with
  | .broken fault :: _ => throw fault
  | token :: _ => return some token
  | [] => return none

def skip : Drafting Unit := modify fun s => { s with tokens := s.tokens.tail }

def accept (token : Token) : Drafting Bool := do
  if (← peek) = some token then
    skip
    return true
  else return false

def expect (token : Token) : Drafting Unit := do
  if !(← accept token) then throw .yaml

def at? (tokens : List Token) : Drafting Bool := do
  return (← peek).any tokens.contains

/-- A new node, under a name if it has one. Names are given once. -/
def add (name : Option (List Char)) (node : Node) : Drafting Nat := do
  let s ← get
  let number := s.nodes.size
  match name with
  | none => set { s with nodes := s.nodes.push node }
  | some name =>
    if (s.names.lookup name).isSome then throw .yaml
    set { s with nodes := s.nodes.push node, names := (name, number) :: s.names }
  return number

def fill (number : Nat) (content : Content) : Drafting Unit :=
  modify fun s => { s with nodes := s.nodes.modify number fun node => { node with content } }

def empty : Drafting Nat := add none ⟨.null, .scalar []⟩

/-- The full name of a tag; `!` alone asks for the tag to be found out. -/
def resolve (tag : WrittenTag) : Drafting (Option Tag) := do
  match tag.handle with
  | none => return if tag.rest = "!" then none else some (.ofName tag.rest)
  | some handle =>
    match (← get).handles.lookup handle with
    | some lead => return some (.ofName (lead ++ tag.rest))
    | none => throw .yaml

def anchor? : Drafting (Option (List Char)) := do
  match ← peek with
  | some (.anchor name) =>
    skip
    return some name
  | _ => return none

def tag? : Drafting (Option WrittenTag) := do
  match ← peek with
  | some (.tag tag) =>
    skip
    return some tag
  | _ => return none

def properties : Drafting (Option (List Char) × Option WrittenTag) := do
  match ← anchor? with
  | some name => return (some name, ← tag?)
  | none =>
    match ← tag? with
    | some tag => return (← anchor?, some tag)
    | none => return (none, none)

mutual

/-- A node with up to `depth` nodes within each other. In a block, blocks may stand
as nodes; where `dashes` is true, even a sequence that is not indented. Every few
calls take a token; `fuel` is enough. -/
def node (fuel depth : Nat) (inBlock dashes : Bool) : Drafting Nat :=
  match fuel, depth with
  | 0, _ => throw .yaml
  | _, 0 => throw .nodesTooDeep
  | fuel + 1, depth + 1 => do
    if let some (.alias name) := ← peek then
      skip
      match (← get).names.lookup name with
      | some number => return number
      | none => throw .yaml
    let (name, written) ← properties
    let found ← match written with
      | some tag => resolve tag
      | none => pure none
    let sequence := add name ⟨found.getD .seq, .sequence []⟩
    let mapping := add name ⟨found.getD .map, .mapping []⟩
    match ← peek with
    | some .dash =>
      if dashes then
        let number ← sequence
        fill number (.sequence (← looseItems fuel depth))
        return number
      else bare name written found
    | some (.scalar plain text) =>
      skip
      let tag := found.getD (if plain || written.isSome then .ofPlain text else .str)
      add name ⟨tag, .scalar text⟩
    | some .flowSequence =>
      skip
      let number ← sequence
      fill number (.sequence (← flowItems fuel depth true))
      return number
    | some .flowMapping =>
      skip
      let number ← mapping
      fill number (.mapping (← flowFields fuel depth true))
      return number
    | some .blockSequence =>
      if inBlock then
        skip
        let number ← sequence
        fill number (.sequence (← blockItems fuel depth))
        return number
      else bare name written found
    | some .blockMapping =>
      if inBlock then
        skip
        let number ← mapping
        fill number (.mapping (← blockFields fuel depth))
        return number
      else bare name written found
    | _ => bare name written found

def bare (name : Option (List Char)) (written : Option WrittenTag) (found : Option Tag) :
    Drafting Nat :=
  if name.isNone && written.isNone then throw .yaml
  else add name ⟨found.getD .null, .scalar []⟩

def nodeUnless (fuel depth : Nat) (ends : List Token) (inBlock dashes : Bool) : Drafting Nat :=
  match fuel with
  | 0 => throw .yaml
  | fuel + 1 => do
    if ← at? ends then
      if depth = 0 then throw .nodesTooDeep
      empty
    else node fuel depth inBlock dashes

def blockItems (fuel depth : Nat) : Drafting (List Nat) :=
  match fuel with
  | 0 => throw .yaml
  | fuel + 1 => do
    if ← accept .dash then
      let item ← nodeUnless fuel depth [.dash, .blockEnd] true false
      return item :: (← blockItems fuel depth)
    else
      expect .blockEnd
      return []

/-- The items of a sequence that is no more indented than the mapping around it. -/
def looseItems (fuel depth : Nat) : Drafting (List Nat) :=
  match fuel with
  | 0 => throw .yaml
  | fuel + 1 => do
    if ← accept .dash then
      let item ← nodeUnless fuel depth [.dash, .key, .value, .blockEnd] true false
      return item :: (← looseItems fuel depth)
    else return []

def blockFields (fuel depth : Nat) : Drafting (List (Nat × Nat)) :=
  match fuel with
  | 0 => throw .yaml
  | fuel + 1 => do
    if ← accept .key then
      let key ← nodeUnless fuel depth [.key, .value, .blockEnd] true true
      let value ← if ← accept .value then
          nodeUnless fuel depth [.key, .value, .blockEnd] true true
        else empty
      return (key, value) :: (← blockFields fuel depth)
    else
      expect .blockEnd
      return []

/-- The items of a sequence in brackets, through its end. A key alone is a
mapping of one field. -/
def flowItems (fuel depth : Nat) (first : Bool) : Drafting (List Nat) :=
  match fuel with
  | 0 => throw .yaml
  | fuel + 1 => do
    if ← accept .flowSequenceEnd then return []
    if !first then expect .comma
    if ← accept .flowSequenceEnd then return []
    let item ← if ← accept .key then do
        if depth = 0 then throw .nodesTooDeep
        let number ← add none ⟨.map, .mapping []⟩
        let key ← nodeUnless fuel (depth - 1) [.value, .comma, .flowSequenceEnd] false false
        let value ← if ← accept .value then
            nodeUnless fuel (depth - 1) [.comma, .flowSequenceEnd] false false
          else empty
        fill number (.mapping [(key, value)])
        pure number
      else node fuel depth false false
    return item :: (← flowItems fuel depth false)

def flowFields (fuel depth : Nat) (first : Bool) : Drafting (List (Nat × Nat)) :=
  match fuel with
  | 0 => throw .yaml
  | fuel + 1 => do
    if ← accept .flowMappingEnd then return []
    if !first then expect .comma
    if ← accept .flowMappingEnd then return []
    let field ← if ← accept .key then do
        let key ← nodeUnless fuel depth [.value, .comma, .flowMappingEnd] false false
        let value ← if ← accept .value then
            nodeUnless fuel depth [.comma, .flowMappingEnd] false false
          else empty
        pure (key, value)
      else do
        let key ← node fuel depth false false
        pure (key, ← empty)
    return field :: (← flowFields fuel depth false)

end

/-- The directives before a document: one version at most, and handles of tags. -/
def directives (versioned : Bool) (handles : List (Text × Text)) :
    List Token → Except Fault (List (Text × Text) × List Token)
  | .version major :: rest =>
    if versioned ∨ major ≠ 1 then .error .yaml else directives true handles rest
  | .handle name lead :: rest =>
    if (handles.lookup name).isSome then .error .yaml
    else directives versioned ((name, lead) :: handles) rest
  | .otherDirective :: rest => directives versioned handles rest
  | .broken fault :: _ => .error fault
  | rest => .ok (handles, rest)

def usualHandles : List (Text × Text) := [("!", "!"), ("!!", Tag.coreLead)]

def atDocumentEnd : Option Token → Bool
  | none => true
  | some .documentStart => true
  | some .documentEnd => true
  | some (.version _) => true
  | some (.handle _ _) => true
  | some .otherDirective => true
  | _ => false

/-- The outermost node, unless the document is empty. Directives need a line that
starts the document. -/
def root (fuel depth : Nat) : Drafting (Option Nat) := do
  let first ← peek
  if first.isNone then return none
  if atDocumentEnd first && first ≠ some .documentEnd then
    let (handles, rest) ← directives false [] (← get).tokens
    modify fun s => { s with tokens := rest, handles := handles ++ usualHandles }
    expect .documentStart
    if atDocumentEnd (← peek) then return some (← empty)
  else modify fun s => { s with handles := usualHandles }
  return some (← node fuel depth true false)

/-- The only document. After it there may be lines that end it; anything else would
belong to another document. -/
def document (depth : Nat) : Drafting (Option Nat) := do
  let number ← root (4 * ((← get).tokens.length + 1)) depth
  match (← get).tokens.dropWhile (· = .documentEnd) with
  | [] => return number
  | rest => do
    let _ ← directives false [] rest
    throw .yaml

end Drafting

/-- A document: its nodes and the number of the outermost, unless it is empty. -/
structure Document where
  nodes : Array Node
  root : Option Nat

def Document.ofText (depth : Nat) (text : List Char) : Except Fault Document := do
  let (root, draft) ← (Drafting.document depth).run ⟨tokens text, [], [], #[]⟩
  return ⟨draft.nodes, root⟩

end IndexCoverage.Yaml
