import Coach.Yaml.Token

/-!
# Nodes of a YAML document

The tree that tokens describe: scalars, sequences and mappings with the tags that were written. An
alias stands for the node with its anchor.

## Main definitions

* `Node`
* `Feed`, `NodeReader`: tokens that are still to be read, with the anchors seen so far
* `node`: reads a node
* `Node.ofTokens`: the one document of a text, if there is any

## Design notes

Every call of the mutual recursion that is at most two calls away reads a token, so rounds in
proportion to the number of tokens are enough.
-/

namespace Coach.Yaml

/-- A node with its tag, if one was written. A plain scalar without a tag means what it looks like. -/
inductive Node where
  | scalar (tag : Option String) (isPlain : Bool) (text : List Char)
  | sequence (tag : Option String) (items : List Node)
  | mapping (tag : Option String) (members : List (Node × Node))
  deriving Repr

namespace Node

/-- A scalar that is not there. -/
def empty : Node := .scalar none true []

end Node

/-- The tokens to be read, the fault behind them if there is one, and the nodes with anchors. -/
structure Feed where
  tokens : List Token
  fault : Option Fault
  anchors : List (List Char × Node) := []

/-- Reads part of the tokens. -/
abbrev NodeReader (α : Type) := StateT Feed (Except Fault) α

namespace NodeReader

/-- The next token, or nothing at the end of the text. -/
def peek : NodeReader (Option Token) := do
  let feed ← get
  match feed.tokens, feed.fault with
  | t :: _, _ => return some t
  | [], none => return none
  | [], some fault => throw fault

/-- Passes over a token. -/
def drop : NodeReader Unit := modify fun feed => { feed with tokens := feed.tokens.tail }

/-- Passes over the given token if it is the next one. -/
def accept (t : Token) : NodeReader Bool := do
  if (← peek) = some t then
    drop
    return true
  else return false

/-- Passes over the given token, which has to be there. -/
def expect (t : Token) : NodeReader Unit := do
  if !(← accept t) then throw .grammar

/-- Whether the next token is one of those given. -/
def next (tokens : List Token) : NodeReader Bool := do
  return (← peek).any tokens.contains

/-- Names a node. -/
def remember (anchor : Option (List Char)) (n : Node) : NodeReader Node := do
  match anchor with
  | some name => modify fun feed => { feed with anchors := (name, n) :: feed.anchors }
  | none => pure ()
  return n

/-- The full name of a tag. -/
def tagName (handle : Option (List Char)) (suffix : List Char) : NodeReader String :=
  match handle with
  | none => return String.ofList suffix
  | some ['!'] => return String.ofList ('!' :: suffix)
  | some ['!', '!'] => return "tag:yaml.org,2002:" ++ String.ofList suffix
  | some _ => throw .grammar

/-- An anchor and a tag, in any order. -/
def properties : Nat → Option (List Char) → Option String →
    NodeReader (Option (List Char) × Option String)
  | 0, anchor, tag => return (anchor, tag)
  | rounds + 1, anchor, tag => do
    match ← peek, anchor, tag with
    | some (.anchor name), none, _ =>
      drop
      properties rounds (some name) tag
    | some (.tag handle suffix), _, none =>
      drop
      properties rounds anchor (some (← tagName handle suffix))
    | _, _, _ => return (anchor, tag)

end NodeReader

open NodeReader

/-- The node of a scalar token. The tag that is only a mark makes a scalar plain. -/
def scalarNode (tag : Option String) (isPlain : Bool) (text : List Char) : Node :=
  if tag = some "!" then .scalar none true text else .scalar tag (isPlain && tag.isNone) text

/-- The tag of a collection; the one that is only a mark says nothing. -/
def collectionTag (tag : Option String) : Option String := tag.filter (· != "!")

mutual

/-- Reads a node. In a block it may be a block collection, and a sequence need not be indented below
its key. -/
def node (inBlock mayHang : Bool) : Nat → NodeReader Node
  | 0 => throw .grammar
  | rounds + 1 => do
    if let some (.alias name) ← peek then
      drop
      match (← get).anchors.find? (·.1 = name) with
      | some (_, n) => return n
      | none => throw .reference
    else
      let (anchor, tag) ← properties 2 none none
      let named := collectionTag tag
      match ← peek, inBlock with
      | some (.scalar isPlain text), _ =>
        drop
        remember anchor (scalarNode tag isPlain text)
      | some .flowSequence, _ =>
        drop
        remember anchor (.sequence named (← flowItems true rounds))
      | some .flowMapping, _ =>
        drop
        remember anchor (.mapping named (← flowMembers true rounds))
      | some .blockEntry, _ =>
        if mayHang then remember anchor (.sequence named (← hangingItems rounds))
        else if anchor.isSome || tag.isSome then remember anchor (scalarNode tag true [])
        else throw .grammar
      | some .blockSequence, true =>
        drop
        remember anchor (.sequence named (← blockItems rounds))
      | some .blockMapping, true =>
        drop
        remember anchor (.mapping named (← blockMembers rounds))
      | _, _ =>
        if anchor.isSome || tag.isSome then remember anchor (scalarNode tag true [])
        else throw .grammar

/-- Reads a node unless one of the given tokens stands in its place. -/
def nodeUnless (inBlock mayHang : Bool) (tokens : List Token) : Nat → NodeReader Node
  | 0 => throw .grammar
  | rounds + 1 => do
    if ← next tokens then return .empty else node inBlock mayHang rounds

/-- Reads the entries of a block sequence up to its end. -/
def blockItems : Nat → NodeReader (List Node)
  | 0 => throw .grammar
  | rounds + 1 => do
    if ← accept .blockEntry then
      let item ← nodeUnless true false [.blockEntry, .blockEnd] rounds
      return item :: (← blockItems rounds)
    else
      expect .blockEnd
      return []

/-- Reads the entries of a sequence that is not indented. -/
def hangingItems : Nat → NodeReader (List Node)
  | 0 => throw .grammar
  | rounds + 1 => do
    if ← accept .blockEntry then
      let item ← nodeUnless true false [.blockEntry, .key, .value, .blockEnd] rounds
      return item :: (← hangingItems rounds)
    else return []

/-- Reads the members of a block mapping up to its end. -/
def blockMembers : Nat → NodeReader (List (Node × Node))
  | 0 => throw .grammar
  | rounds + 1 => do
    let stops : List Token := [.key, .value, .blockEnd]
    if ← accept .key then
      let key ← nodeUnless true true stops rounds
      let value ← if ← accept .value then nodeUnless true true stops rounds else pure .empty
      return (key, value) :: (← blockMembers rounds)
    else
      expect .blockEnd
      return []

/-- Reads the items of a flow sequence up to its bracket. A single member counts as a mapping. -/
def flowItems (isFirst : Bool) : Nat → NodeReader (List Node)
  | 0 => throw .grammar
  | rounds + 1 => do
    if ← accept .flowSequenceEnd then return []
    else
      if !isFirst then expect .flowEntry
      if ← accept .key then
        let key ← nodeUnless false false [.value, .flowEntry, .flowSequenceEnd] rounds
        let value ← if ← accept .value then
            nodeUnless false false [.flowEntry, .flowSequenceEnd] rounds
          else pure .empty
        return .mapping none [(key, value)] :: (← flowItems false rounds)
      else if ← accept .flowSequenceEnd then return []
      else
        let item ← node false false rounds
        return item :: (← flowItems false rounds)

/-- Reads the members of a flow mapping up to its brace. -/
def flowMembers (isFirst : Bool) : Nat → NodeReader (List (Node × Node))
  | 0 => throw .grammar
  | rounds + 1 => do
    if ← accept .flowMappingEnd then return []
    else
      if !isFirst then expect .flowEntry
      if ← accept .key then
        let key ← nodeUnless false false [.value, .flowEntry, .flowMappingEnd] rounds
        let value ← if ← accept .value then
            nodeUnless false false [.flowEntry, .flowMappingEnd] rounds
          else pure .empty
        return (key, value) :: (← flowMembers false rounds)
      else if ← accept .flowMappingEnd then return []
      else
        let key ← node false false rounds
        return (key, .empty) :: (← flowMembers false rounds)

end

/-- Passes over the marks after a document. -/
def dropEnds : Nat → NodeReader Unit
  | 0 => return ()
  | rounds + 1 => do
    if ← accept .documentEnd then dropEnds rounds

/-- Passes over the lines about a document. A version that cannot be read is a fault. -/
def dropDirectives : Nat → NodeReader Unit
  | 0 => return ()
  | rounds + 1 => do
    match ← peek with
    | some (.directive true) =>
      drop
      dropDirectives rounds
    | some (.directive false) => throw .grammar
    | _ => return ()

/-- Reads a document that begins with a mark, if there is one. -/
def markedDocument (rounds : Nat) : NodeReader (Option Node) := do
  dropEnds rounds
  if (← peek).isNone then return none
  else
    dropDirectives rounds
    expect .documentStart
    match ← peek with
    | none => return some .empty
    | some (.directive _) => return some .empty
    | _ => nodeUnless true false [.documentStart, .documentEnd] rounds

/-- Reads the first document, which may do without a mark. -/
def firstDocument (rounds : Nat) : NodeReader (Option Node) := do
  match ← peek with
  | none => return none
  | some (.directive _) => markedDocument rounds
  | some .documentStart => markedDocument rounds
  | _ => node true false rounds

/-- Reads the one document of a text. -/
def document (rounds : Nat) : NodeReader (Option Node) := do
  let first ← firstDocument rounds
  let _ ← accept .documentEnd
  dropEnds rounds
  if (← peek).isNone then return first
  else
    dropDirectives rounds
    expect .documentStart
    throw .reference

/-- The document that tokens describe. -/
def Node.ofTokens (tokens : Tokens) : Except Fault (Option Node) := do
  let feed : Feed := { tokens := tokens.list, fault := tokens.fault }
  return (← (document (4 * tokens.list.length + 8)).run feed).1

end Coach.Yaml
