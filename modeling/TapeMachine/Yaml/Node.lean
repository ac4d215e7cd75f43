import TapeMachine.Yaml.Lexer
import TapeMachine.Yaml.Tag

/-!
The tree of a document: scalars, sequences and mappings, each with its type. Anchors and aliases are
resolved: an alias is the node it stands for, except inside that node itself.
-/
namespace TapeMachine.Yaml

/-- What became of the keys `<<` of a mapping. -/
inductive Merging where
  | without
  | resolved
  /-- The value of such a key is neither a mapping nor a list of mappings. -/
  | impossible
  deriving DecidableEq, Repr

inductive Node where
  | scalar (tag : Tag) (text : Text)
  | sequence (tag : Tag) (items : List Node)
  | mapping (tag : Tag) (merging : Merging) (entries : List (Node × Node))
  /-- An alias of a collection that encloses it. -/
  | enclosing (tag : Tag)

namespace Node

def tag : Node → Tag
  | scalar t _ | sequence t _ | mapping t _ _ | enclosing t => t

def mergedFrom? : Node → Option (List (Node × Node))
  | mapping _ .impossible _ => none
  | mapping _ _ entries => some entries
  | enclosing .mapping => some []
  | _ => none

/-- The entries that the value of a key `<<` adds. Of several mappings the earlier come later, so that
they count. -/
def merged? : Node → Option (List (Node × Node))
  | sequence _ items => (items.mapM mergedFrom?).map fun parts => parts.reverse.flatten
  | n => n.mergedFrom?

/-- A mapping from its entries as they are written. What is merged comes before its own entries. -/
def ofEntries (tag : Tag) (entries : List (Node × Node)) : Node :=
  let (merges, own) := entries.partition fun (k, _) => k.tag = .merge
  if merges.isEmpty then .mapping tag .without own
  else
    match merges.mapM fun (_, v) => v.merged? with
    | some parts => .mapping tag .resolved (parts.flatten ++ own)
    | none => .mapping tag .impossible own

end Node

/-- What is left to read of a document: its tokens, the nodes of the anchors met so far, and what tag
handles are short for. -/
structure Remaining where
  tokens : List Token
  anchors : List (String × Node) := []
  handles : List (String × String) := []

abbrev NodeReader := StateT Remaining (Except Error)

namespace NodeReader

def malformed {α : Type} : NodeReader α := throw .malformed

def peek : NodeReader Token := do
  match (← get).tokens with
  | .failure e :: _ => throw e
  | t :: _ => return t
  | [] => return .streamEnd

def advance : NodeReader Unit := modify fun s => { s with tokens := s.tokens.tail }

def lookup (name : String) : NodeReader (Option Node) := return (← get).anchors.lookup name

def remember (name : String) (n : Node) : NodeReader Unit :=
  modify fun s => { s with anchors := (name, n) :: s.anchors }

/-- The null that stands where nothing is written. -/
def nothing : Node := .scalar .null []

/-- An anchor and a tag in either order, both optional. -/
def properties : NodeReader (Option String × Option (Option String × String)) := do
  match ← peek with
  | .anchor a =>
    advance
    match ← peek with
    | .tag handle suffix =>
      advance
      return (some a, some (handle, suffix))
    | _ => return (some a, none)
  | .tag handle suffix =>
    advance
    match ← peek with
    | .anchor a =>
      advance
      return (some a, some (handle, suffix))
    | _ => return (none, some (handle, suffix))
  | _ => return (none, none)

/-- The full form of a tag; a single exclamation mark stays as it is. -/
def fullTag : Option (Option String × String) → NodeReader (Option String)
  | none => return none
  | some (none, suffix) => return some suffix
  | some (some handle, suffix) => do
    match (← get).handles.lookup handle with
    | some stem => return some (stem ++ suffix)
    | none => malformed

/-- The type of a scalar with a tag, or by its form if it is plain or marked with `!`. -/
def scalarTag (tag : Option String) (plain : Bool) (text : Text) : Tag :=
  match tag with
  | none => if plain then Tag.ofForm text else .text
  | some "!" => Tag.ofForm text
  | some uri => Tag.ofUri uri

def collectionTag (tag : Option String) (default : Tag) : Tag :=
  match tag with
  | none | some "!" => default
  | some uri => Tag.ofUri uri

/-- Reads a collection and keeps it for its anchor. Inside, the anchor stands for what encloses it. -/
def anchored (anchor : Option String) (tag : Tag) (body : NodeReader Node) : NodeReader Node := do
  match anchor with
  | none => body
  | some name =>
    remember name (.enclosing tag)
    let n ← body
    remember name n
    return n

/-- Where a node stands, which decides what may be there. -/
inductive Place where
  | flow
  | block
  /-- After a key or a colon of a block mapping, where a sequence need not be indented. -/
  | entry
  deriving DecidableEq

mutual

/-- Reads a node. The number of calls inside one another is at most `fuel`. -/
def node : (fuel : Nat) → Place → NodeReader Node
  | 0, _ => malformed
  | fuel + 1, place => do
    if let .alias name := ← peek then
      advance
      match ← lookup name with
      | some n => return n
      | none => malformed
    else
      let (anchor, raw) ← properties
      let tag ← fullTag raw
      if let some name := anchor then
        if (← lookup name).isSome then malformed
      let sequence (items : NodeReader (List Node)) : NodeReader Node :=
        let t := collectionTag tag .list
        anchored anchor t (return .sequence t (← items))
      let mapping (entries : NodeReader (List (Node × Node))) : NodeReader Node :=
        let t := collectionTag tag .mapping
        anchored anchor t (return .ofEntries t (← entries))
      let scalar (text : Text) (plain : Bool) : NodeReader Node := do
        let n := Node.scalar (scalarTag tag plain text) text
        if let some name := anchor then remember name n
        return n
      match ← peek with
      | .scalar text plain =>
        advance
        scalar text plain
      | .flowSequenceStart =>
        advance
        sequence (flowItems fuel true)
      | .flowMappingStart =>
        advance
        mapping (flowEntries fuel true)
      | .blockSequenceStart =>
        if place = .flow then if anchor.isSome || tag.isSome then scalar [] true else malformed
        else
          advance
          sequence (blockItems fuel)
      | .blockMappingStart =>
        if place = .flow then if anchor.isSome || tag.isSome then scalar [] true else malformed
        else
          advance
          mapping (blockEntries fuel)
      | t =>
        if place = .entry && t = .blockEntry then sequence (looseItems fuel)
        else if anchor.isSome || tag.isSome then scalar [] true
        else malformed

/-- Reads a node unless the next token shows that there is none. -/
def optionalNode : (fuel : Nat) → Place → (ends : Token → Bool) → NodeReader Node
  | 0, _, _ => malformed
  | fuel + 1, place, ends => do
    if ends (← peek) then return nothing else node fuel place

def blockItems : (fuel : Nat) → NodeReader (List Node)
  | 0 => malformed
  | fuel + 1 => do
    match ← peek with
    | .blockEntry =>
      advance
      let n ← optionalNode fuel .block fun t => t = .blockEntry || t = .blockEnd
      return n :: (← blockItems fuel)
    | .blockEnd =>
      advance
      return []
    | _ => malformed

/-- The items of a sequence that is indented no further than the mapping around it. -/
def looseItems : (fuel : Nat) → NodeReader (List Node)
  | 0 => malformed
  | fuel + 1 => do
    match ← peek with
    | .blockEntry =>
      advance
      let n ← optionalNode fuel .block fun t =>
        t = .blockEntry || t = .key || t = .value || t = .blockEnd
      return n :: (← looseItems fuel)
    | _ => return []

def blockEntries : (fuel : Nat) → NodeReader (List (Node × Node))
  | 0 => malformed
  | fuel + 1 => do
    let ends (t : Token) : Bool := t = .key || t = .value || t = .blockEnd
    match ← peek with
    | .key =>
      advance
      let k ← optionalNode fuel .entry ends
      let v ←
        match ← peek with
        | .value =>
          advance
          optionalNode fuel .entry ends
        | _ => pure nothing
      return (k, v) :: (← blockEntries fuel)
    | .blockEnd =>
      advance
      return []
    | _ => malformed

def flowValue : (fuel : Nat) → (close : Token) → NodeReader Node
  | 0, _ => malformed
  | fuel + 1, close => do
    match ← peek with
    | .value =>
      advance
      optionalNode fuel .flow fun t => t = .flowEntry || t = close
    | _ => return nothing

/-- The items of a flow sequence. An item with a colon is a mapping with one entry. -/
def flowItems : (fuel : Nat) → (first : Bool) → NodeReader (List Node)
  | 0, _ => malformed
  | fuel + 1, first => do
    let close := Token.flowSequenceEnd
    if (← peek) = close then
      advance
      return []
    else
      unless first do
        if (← peek) = .flowEntry then advance else malformed
      match ← peek with
      | .flowSequenceEnd =>
        advance
        return []
      | .key =>
        advance
        let k ← optionalNode fuel .flow fun t => t = .value || t = .flowEntry || t = close
        let v ← flowValue fuel close
        return .ofEntries .mapping [(k, v)] :: (← flowItems fuel false)
      | _ =>
        let n ← node fuel .flow
        return n :: (← flowItems fuel false)

/-- The entries of a flow mapping. A node without a colon is a key with no value. -/
def flowEntries : (fuel : Nat) → (first : Bool) → NodeReader (List (Node × Node))
  | 0, _ => malformed
  | fuel + 1, first => do
    let close := Token.flowMappingEnd
    if (← peek) = close then
      advance
      return []
    else
      unless first do
        if (← peek) = .flowEntry then advance else malformed
      match ← peek with
      | .flowMappingEnd =>
        advance
        return []
      | .key =>
        advance
        let k ← optionalNode fuel .flow fun t => t = .value || t = .flowEntry || t = close
        let v ← flowValue fuel close
        return (k, v) :: (← flowEntries fuel false)
      | _ =>
        let k ← node fuel .flow
        return (k, nothing) :: (← flowEntries fuel false)

end

/-- The directives before a document: whether a version was given, and the handles. -/
def directives : (fuel : Nat) → (versioned : Bool) → (handles : List (String × String)) →
    NodeReader (List (String × String))
  | 0, _, _ => malformed
  | fuel + 1, versioned, handles => do
    match ← peek with
    | .directive d =>
      advance
      match d with
      | .version major _ =>
        if versioned || major ≠ 1 then malformed else directives fuel true handles
      | .handle name stem =>
        if (handles.lookup name).isSome then malformed
        else directives fuel versioned ((name, stem) :: handles)
      | .other => directives fuel versioned handles
    | _ => return handles

/-- The handles that every document has, unless it gives them another meaning. -/
def standardHandles : List (String × String) := [("!", "!"), ("!!", Tag.stem)]

def skipDocumentEnds : (fuel : Nat) → NodeReader Unit
  | 0 => return ()
  | fuel + 1 => do
    if (← peek) = .documentEnd then
      advance
      skipDocumentEnds fuel

def document (fuel : Nat) : NodeReader (Option Node) := do
  let content ←
    match ← peek with
    | .streamEnd => return none
    | .directive _ | .documentStart => do
      let handles ← directives fuel false []
      if (← peek) ≠ .documentStart then malformed
      advance
      modify fun s => { s with handles := handles ++ standardHandles }
      match ← peek with
      | .directive _ | .documentStart | .documentEnd | .streamEnd => pure nothing
      | _ => node fuel .block
    | _ => do
      modify fun s => { s with handles := standardHandles }
      node fuel .block
  skipDocumentEnds fuel
  if (← peek) ≠ .streamEnd then malformed
  return some content

end NodeReader

def Node.parse (text : List Char) : Except Error (Option Node) :=
  let ts := tokens text
  (NodeReader.document (2 * ts.length + 4)).run' { tokens := ts }

end TapeMachine.Yaml
