import SecdMachine.Yaml.Tokens

/-!
# SecdMachine.Yaml.Node

The first document of a YAML stream as a tree of nodes.

1. A document is a node, and there may be none.  Directives in front of it
   need a marker after them.
2. A node is a scalar, a sequence or a mapping, and may have a tag and an
   anchor.  An alias stands for the latest node with its anchor; one inside
   that very node goes round in a circle (`Node.circle`).
3. A node that is missing is an empty plain scalar.
4. The stream is read no further than to the token after the document.
-/

namespace SecdMachine.Yaml

/-- A node of a document. -/
inductive Node where
  | scalar (tag : Option String) (plain : Bool) (text : String)
  | sequence (items : List Node)
  | mapping (entries : List (Node × Node))
  /-- An alias, with the node that it stands for. -/
  | alias (name : String) (target : Node)
  /-- An alias inside the node that it stands for. -/
  | circle (name : String)
deriving Repr

/-- The node that stands where one is missing. -/
def Node.missing : Node := .scalar none true ""

/-- What an anchor belongs to: a node that is still being read, with a number
of its own, or one that has been. -/
inductive Anchored where
  | unfinished (number : Nat)
  | node (n : Node)
deriving Repr

/-- A document that is being read. -/
structure Reading where
  tokens : Tokens
  /-- The texts that tag handles stand for. -/
  handles : List (String × String) := []
  /-- The anchors, latest first. -/
  anchors : List (String × Anchored) := []
deriving Repr

/-- A reader of a part of a document, which may fail. -/
abbrev Reader := StateT Reading Option

namespace Reader

/-! ## Tokens -/

/-- The next token. -/
def peek : Reader Token := fun r =>
  r.tokens.demand.bind fun t =>
    match t.queue with
    | token :: _ => some (token, { r with tokens := t })
    | [] => none

/-- Takes the next token. -/
def take : Reader Unit :=
  modify fun r => { r with tokens := r.tokens.take }

/-- Takes the next token and gives the one after it. -/
def next : Reader Token := do
  take
  peek

/-! ## Anchors and tags -/

/-- The node of an alias. -/
def aliasNode (name : String) : Reader Node := do
  match (← get).anchors.lookup name with
  | some (.node n) => pure (.alias name n)
  | some (.unfinished _) => pure (.circle name)
  | none => failure

/-- Binds an anchor, if there is one, to a node that has been read. -/
def bindAnchor (anchor : Option String) (n : Node) : Reader Node := do
  match anchor with
  | some name => modify fun r => { r with anchors := (name, .node n) :: r.anchors }
  | none => pure ()
  pure n

/-- Reads a node with an anchor, which is bound from the start. -/
def anchored (anchor : Option String) (read : Reader Node) : Reader Node := do
  match anchor with
  | none => read
  | some name =>
    let number := (← get).tokens.taken
    modify fun r => { r with anchors := (name, .unfinished number) :: r.anchors }
    let n ← read
    modify fun r =>
      { r with
        anchors := r.anchors.map fun (name, a) =>
          match a with
          | .unfinished k => (name, if k = number then .node n else a)
          | .node _ => (name, a) }
    pure n

/-- The text of the common tags, which are written after two exclamation
marks. -/
def commonHandle : String := "tag:yaml.org,2002:"

/-- A tag in its short form. -/
def shortTag (tag : String) : String :=
  if commonHandle.toList.isPrefixOf tag.toList then
    "!!" ++ String.ofList (tag.toList.drop commonHandle.length)
  else tag

/-- The tag that a handle and a suffix make.  A lone exclamation mark is as
good as no tag. -/
def resolveTag (handle suffix : String) : Reader (Option String) := do
  let tag ←
    if handle = "" then pure suffix
    else
      match (← get).handles.lookup handle with
      | some text => pure (text ++ suffix)
      | none => failure
  pure (if tag = "!" then none else some (shortTag tag))

/-- What stands in front of a node. -/
structure Properties where
  anchor : Option String := none
  tag : Option String := none
  /-- Whether there is anything. -/
  present : Bool := false
deriving DecidableEq, Repr

/-- Reads an anchor and a tag, in either order. -/
def properties : Reader Properties := do
  match ← peek with
  | .anchor name =>
    match ← next with
    | .tag handle suffix => do
      take
      let tag ← resolveTag handle suffix
      pure ⟨some name, tag, true⟩
    | _ => pure ⟨some name, none, true⟩
  | .tag handle suffix =>
    match ← next with
    | .anchor name => do
      take
      let tag ← resolveTag handle suffix
      pure ⟨some name, tag, true⟩
    | _ => do
      let tag ← resolveTag handle suffix
      pure ⟨none, tag, true⟩
  | _ => pure {}

/-! ## Nodes -/

/-- Whether a token cannot start a value or a key of a block mapping. -/
def endsBlockPart : Token → Bool
  | .key | .value | .blockEnd => true
  | _ => false

/-- Whether a token cannot start an item of a block sequence. -/
def endsBlockItem : Token → Bool
  | .blockEntry | .blockEnd => true
  | _ => false

/-- Whether a token ends a key or a value of a mapping in braces. -/
def endsFlowPart : Token → Bool
  | .flowEntry | .flowMappingEnd => true
  | _ => false

/-- Whether a token ends a key or a value of a pair inside brackets. -/
def endsFlowPair : Token → Bool
  | .flowEntry | .flowSequenceEnd => true
  | _ => false

mutual
/-- Reads a node: in a block (`block`) or in brackets, where `indentless` tells
whether a sequence may stand at the column of the mapping around it. -/
def node : Nat → Bool → Bool → Reader Node
  | 0, _, _ => failure
  | fuel + 1, block, indentless => do
    match ← peek with
    | .alias name =>
      take
      aliasNode name
    | _ =>
      let p ← properties
      match ← peek with
      | .scalar plain text =>
        take
        bindAnchor p.anchor (.scalar p.tag plain text)
      | .flowSequenceStart =>
        take
        anchored p.anchor (.sequence <$> flowItems fuel true)
      | .flowMappingStart =>
        take
        anchored p.anchor (.mapping <$> flowEntries fuel true)
      | token =>
        if token = .blockEntry && indentless then
          anchored p.anchor (.sequence <$> indentlessItems fuel)
        else if token = .blockSequenceStart && block then
          take
          anchored p.anchor (.sequence <$> blockItems fuel)
        else if token = .blockMappingStart && block then
          take
          anchored p.anchor (.mapping <$> blockEntries fuel)
        else if p.present then bindAnchor p.anchor (.scalar p.tag true "")
        else failure

/-- Reads a node unless the next token cannot start one. -/
def nodeUnless : Nat → (Token → Bool) → Bool → Bool → Reader Node
  | 0, _, _, _ => failure
  | fuel + 1, ends, block, indentless => do
    if ends (← peek) then pure .missing else node fuel block indentless

/-- Reads the items of a block sequence. -/
def blockItems : Nat → Reader (List Node)
  | 0 => failure
  | fuel + 1 => do
    match ← peek with
    | .blockEntry =>
      take
      let item ← nodeUnless fuel endsBlockItem true false
      return item :: (← blockItems fuel)
    | .blockEnd =>
      take
      pure []
    | _ => failure

/-- Reads the items of a sequence that stands at the column of the mapping
around it. -/
def indentlessItems : Nat → Reader (List Node)
  | 0 => failure
  | fuel + 1 => do
    match ← peek with
    | .blockEntry =>
      take
      let item ← nodeUnless fuel (fun t => endsBlockItem t || endsBlockPart t) true false
      return item :: (← indentlessItems fuel)
    | _ => pure []

/-- Reads the entries of a block mapping. -/
def blockEntries : Nat → Reader (List (Node × Node))
  | 0 => failure
  | fuel + 1 => do
    match ← peek with
    | .key =>
      take
      let key ← nodeUnless fuel endsBlockPart true true
      let value ← blockValue fuel
      return (key, value) :: (← blockEntries fuel)
    | .blockEnd =>
      take
      pure []
    | _ => failure

/-- Reads the value of an entry of a block mapping. -/
def blockValue : Nat → Reader Node
  | 0 => failure
  | fuel + 1 => do
    match ← peek with
    | .value =>
      take
      nodeUnless fuel endsBlockPart true true
    | _ => pure .missing

/-- Reads the items of a sequence in brackets, up to the closing bracket; a
comma comes before all of them but the first. -/
def flowItems : Nat → Bool → Reader (List Node)
  | 0, _ => failure
  | fuel + 1, first => do
    let start ← peek
    if start = .flowSequenceEnd then
      take
      pure []
    else if !first && start ≠ .flowEntry then failure
    else
      let token ← if first then pure start else next
      match token with
      | .flowSequenceEnd =>
        take
        pure []
      | .key =>
        take
        let pair ← flowPair fuel
        return .mapping [pair] :: (← flowItems fuel false)
      | _ =>
        let item ← node fuel false false
        return item :: (← flowItems fuel false)

/-- Reads a pair inside the brackets of a sequence.  Where the key is missing,
the token in its place is passed over. -/
def flowPair : Nat → Reader (Node × Node)
  | 0 => failure
  | fuel + 1 => do
    let token ← peek
    let key ←
      if token = .value || endsFlowPair token then do
        take
        pure .missing
      else node fuel false false
    match ← peek with
    | .value =>
      take
      return (key, ← nodeUnless fuel endsFlowPair false false)
    | _ => pure (key, .missing)

/-- Reads the entries of a mapping in braces, up to the closing brace; a comma
comes before all of them but the first. -/
def flowEntries : Nat → Bool → Reader (List (Node × Node))
  | 0, _ => failure
  | fuel + 1, first => do
    let start ← peek
    if start = .flowMappingEnd then
      take
      pure []
    else if !first && start ≠ .flowEntry then failure
    else
      let token ← if first then pure start else next
      match token with
      | .flowMappingEnd =>
        take
        pure []
      | .key =>
        take
        let key ← nodeUnless fuel (fun t => t = .value || endsFlowPart t) false false
        match ← peek with
        | .value =>
          take
          let value ← nodeUnless fuel endsFlowPart false false
          return (key, value) :: (← flowEntries fuel false)
        | _ => return (key, .missing) :: (← flowEntries fuel false)
      | _ =>
        let key ← node fuel false false
        return (key, .missing) :: (← flowEntries fuel false)
end

/-! ## Documents -/

/-- The tag handles that need no directive. -/
def commonHandles : List (String × String) :=
  [("!", "!"), ("!!", commonHandle)]

/-- Reads directives: the version, which is 1.1, at most once, and each tag
handle at most once. -/
def directives : Nat → Bool → Reader Unit
  | 0, _ => failure
  | fuel + 1, versioned => do
    match ← peek with
    | .version major minor =>
      if versioned || major ≠ 1 || minor ≠ 1 then failure
      take
      directives fuel true
    | .handle name text =>
      let r ← get
      if (r.handles.lookup name).isSome then failure
      set { r with handles := r.handles ++ [(name, text)] }
      take
      directives fuel versioned
    | _ => modify fun r => { r with handles := r.handles ++ commonHandles }

/-- Whether a token starts or ends a document that is marked as such. -/
def isDocumentToken : Token → Bool
  | .version _ _ | .handle _ _ | .documentStart | .documentEnd | .streamEnd => true
  | _ => false

/-- Reads the first document, if there is one, and looks at what follows. -/
def document (fuel : Nat) : Reader (Option Node) := do
  let token ← peek
  if token = .streamEnd then pure none
  else
    directives fuel false
    let n ←
      if isDocumentToken token && token ≠ .documentEnd then do
        if (← peek) ≠ .documentStart then failure
        take
        nodeUnless fuel isDocumentToken true false
      else node fuel true false
    let _ ← peek
    pure (some n)

end Reader

/-- The first document of a stream: `none` if the stream is malformed, and no
node if there is no document.  Each token takes at most two calls, and each
character makes at most four tokens. -/
def firstDocument? (text : String) : Option (Option Node) :=
  let tokens := Tokens.ofText text
  (Reader.document (8 * tokens.rest.length + 16)).run { tokens := tokens } |>.map (·.1)

end SecdMachine.Yaml
