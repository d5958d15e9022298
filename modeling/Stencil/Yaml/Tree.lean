import Stencil.Yaml.Scan

/-!
The tree of nodes that tokens stand for. An alias stands for the node with its anchor.
-/

namespace Stencil.Yaml

/-- What is known of a node's kind from its marks alone. -/
inductive Tag where
  /-- No tag: a plain scalar is of the kind that it looks like. -/
  | unmarked (plain : Bool)
  | named (tag : String)
deriving DecidableEq

inductive Node where
  | scalar (tag : Tag) (text : String)
  | sequence (tag : Tag) (items : List Node)
  | mapping (tag : Tag) (entries : List (Node × Node))

namespace Node

/-- What stands where nothing is written. -/
def empty : Node := .scalar (.unmarked true) ""

end Node

structure Composer where
  tokens : List Token
  /-- What tag handles stand for. -/
  handles : List (String × String)
  /-- The anchors so far; a node that is not complete has none to give. -/
  anchors : List (String × Option Node)

abbrev Compose := StateT Composer (Except Fault)

namespace Compose

def refuse {α : Type} (what : String) : Compose α := throw (.malformed what)

def peek : Compose Token := return (← get).tokens.headD .streamEnd

def drop : Compose Unit := modify fun s => { s with tokens := s.tokens.drop 1 }

/-- The next token is one of some. -/
def sees (ts : List Token) : Compose Bool := return ts.contains (← peek)

def accept (t : Token) : Compose Bool := do
  if ← sees [t] then
    drop
    return true
  else return false

def standardHandles : List (String × String) := [("!", "!"), ("!!", "tag:yaml.org,2002:")]

/-- The whole tag that a mark stands for. -/
def wholeTag (m : TagMark) : Compose String := do
  match m.handle with
  | none => return m.suffix
  | some h =>
    match (← get).handles.lookup h with
    | some lead => return lead ++ m.suffix
    | none => refuse "a tag's handle is unknown"

/-- The anchor and the tag in front of a node, in either order. -/
def marks : Compose (Option String × Option String) := do
  match ← peek with
  | .anchor name =>
    drop
    match ← peek with
    | .tag m =>
      drop
      return (some name, some (← wholeTag m))
    | _ => return (some name, none)
  | .tag m =>
    drop
    match ← peek with
    | .anchor name =>
      drop
      return (some name, some (← wholeTag m))
    | _ => return (none, some (← wholeTag m))
  | _ => return (none, none)

/-- What a tag says about a node; a lone exclamation mark says no more than that it looks like
what it is. -/
def tagOf (plain : Bool) : Option String → Tag
  | none => .unmarked plain
  | some t => if t == "!" then .unmarked true else .named t

def openAnchor (name : Option String) : Compose Unit := do
  match name with
  | none => return ()
  | some n =>
    if (← get).anchors.any (·.1 == n) then refuse "an anchor is used twice"
    modify fun s => { s with anchors := (n, none) :: s.anchors }

def closeAnchor (name : Option String) (node : Node) : Compose Unit :=
  match name with
  | none => return ()
  | some n =>
    modify fun s =>
      { s with anchors := s.anchors.map fun e => if e.1 == n then (n, some node) else e }

def aliased (name : String) : Compose Node := do
  match (← get).anchors.lookup name with
  | some (some node) => return node
  | some none => refuse "a node holds itself"
  | none => refuse "an alias stands for nothing"

mutual

/-- A node; in a block it may be a block collection, and where the lines of a sequence need not be
deeper it may be such a sequence. -/
def node (isBlock level : Bool) : (fuel : Nat) → Compose Node
  | 0 => refuse "the text is too deep"
  | n + 1 => do
    match ← peek with
    | .alias_ name =>
      drop
      aliased name
    | _ =>
      let (anchor, tag) ← marks
      openAnchor anchor
      let found ← body isBlock level anchor tag n
      closeAnchor anchor found
      return found

/-- What stands behind a node's marks. -/
def body (isBlock level : Bool) (anchor tag : Option String) : (fuel : Nat) → Compose Node
  | 0 => refuse "the text is too deep"
  | n + 1 => do
    let collection := tagOf true tag
    match ← peek with
    | .blockEntry =>
      if level then return .sequence collection (← levelItems n) else nothing anchor tag
    | .scalar text plain =>
      drop
      return .scalar (tagOf plain tag) text
    | .flowSequenceStart =>
      drop
      return .sequence collection (← flowItems true n)
    | .flowMappingStart =>
      drop
      return .mapping collection (← flowEntries true n)
    | .blockSequenceStart =>
      if isBlock then
        drop
        return .sequence collection (← blockItems n)
      else nothing anchor tag
    | .blockMappingStart =>
      if isBlock then
        drop
        return .mapping collection (← blockEntries n)
      else nothing anchor tag
    | _ => nothing anchor tag
where
  /-- Marks alone make an empty scalar. -/
  nothing (anchor tag : Option String) : Compose Node :=
    if anchor.isNone && tag.isNone then refuse "a node is missing"
    else
      return .scalar (match tag with
        | none => .unmarked true
        | some t => tagOf true (some t)) ""

/-- A node unless one of some tokens follows; then nothing is written. -/
def nodeUnless (ends : List Token) (isBlock level : Bool) : (fuel : Nat) → Compose Node
  | 0 => refuse "the text is too deep"
  | n + 1 => do if ← sees ends then return .empty else node isBlock level n

/-- The items of a block sequence up to its end. -/
def blockItems : (fuel : Nat) → Compose (List Node)
  | 0 => refuse "the text is too deep"
  | n + 1 => do
    if ← accept .blockEntry then
      let item ← nodeUnless [.blockEntry, .blockEnd] true false n
      return item :: (← blockItems n)
    else if ← accept .blockEnd then return []
    else refuse "a block sequence goes on with something else"

/-- The items of a sequence at the level of the mapping that it stands in. -/
def levelItems : (fuel : Nat) → Compose (List Node)
  | 0 => refuse "the text is too deep"
  | n + 1 => do
    if ← accept .blockEntry then
      let item ← nodeUnless [.blockEntry, .key, .value, .blockEnd] true false n
      return item :: (← levelItems n)
    else return []

/-- The value behind a key, if a colon follows. -/
def valueUnless (ends : List Token) (isBlock level : Bool) : (fuel : Nat) → Compose Node
  | 0 => refuse "the text is too deep"
  | n + 1 => do
    if ← accept .value then nodeUnless ends isBlock level n else return .empty

/-- The entries of a block mapping up to its end. -/
def blockEntries : (fuel : Nat) → Compose (List (Node × Node))
  | 0 => refuse "the text is too deep"
  | n + 1 => do
    if ← accept .key then
      let key ← nodeUnless [.key, .value, .blockEnd] true true n
      let value ← valueUnless [.key, .value, .blockEnd] true true n
      return (key, value) :: (← blockEntries n)
    else if ← accept .blockEnd then return []
    else refuse "a block mapping goes on with something else"

/-- The items of a sequence in brackets; a key among them makes a mapping of one entry. -/
def flowItems (first : Bool) : (fuel : Nat) → Compose (List Node)
  | 0 => refuse "the text is too deep"
  | n + 1 => do
    if ← accept .flowSequenceEnd then return []
    if !first then
      if !(← accept .flowEntry) then refuse "a comma is missing in a sequence"
    if ← accept .key then
      let ends := [.flowEntry, .flowSequenceEnd]
      let key ← nodeUnless (.value :: ends) false false n
      let value ← valueUnless ends false false n
      return .mapping (.unmarked true) [(key, value)] :: (← flowItems false n)
    else if ← accept .flowSequenceEnd then return []
    else
      let item ← node false false n
      return item :: (← flowItems false n)

/-- The entries of a mapping in brackets; a node alone is a key without a value. -/
def flowEntries (first : Bool) : (fuel : Nat) → Compose (List (Node × Node))
  | 0 => refuse "the text is too deep"
  | n + 1 => do
    if ← accept .flowMappingEnd then return []
    if !first then
      if !(← accept .flowEntry) then refuse "a comma is missing in a mapping"
    if ← accept .key then
      let ends := [.flowEntry, .flowMappingEnd]
      let key ← nodeUnless (.value :: ends) false false n
      let value ← valueUnless ends false false n
      return (key, value) :: (← flowEntries false n)
    else if ← accept .flowMappingEnd then return []
    else
      let key ← node false false n
      return (key, .empty) :: (← flowEntries false n)

end

/-- The directives in front of a document. -/
def directives : (fuel : Nat) → (version : Bool) → Compose Unit
  | 0, _ => return ()
  | n + 1, version => do
    match ← peek with
    | .directive d =>
      drop
      match d with
      | .version major _ =>
        if version then refuse "the version is given twice"
        if major != 1 then refuse "the version is not supported"
        directives n true
      | .tag h lead =>
        if (← get).handles.any (·.1 == h) then refuse "a tag's handle is given twice"
        modify fun s => { s with handles := s.handles ++ [(h, lead)] }
        directives n version
      | .other => directives n version
    | _ => return ()

def dropDocumentEnds : (fuel : Nat) → Compose Unit
  | 0 => return ()
  | n + 1 => do if ← accept .documentEnd then dropDocumentEnds n

/-- Only the end of the text follows. -/
def finish (fuel : Nat) : Compose Unit := do
  dropDocumentEnds fuel
  if (← peek) != .streamEnd then refuse "there is more than one document"

/-- A document behind three hyphens. -/
def explicitDocument (fuel : Nat) : Compose Node := do
  directives fuel false
  modify fun s =>
    let missing := standardHandles.filter fun e => !s.handles.any (·.1 == e.1)
    { s with handles := s.handles ++ missing }
  if !(← accept .documentStart) then refuse "a document's start is missing"
  match ← peek with
  | .directive _ | .documentStart | .documentEnd | .streamEnd => return .empty
  | _ => node true false fuel

/-- The one document of a text, if there is one. -/
def document (fuel : Nat) : Compose (Option Node) := do
  let found ← match ← peek with
    | .streamEnd => pure none
    | .directive _ | .documentStart => some <$> explicitDocument fuel
    | .documentEnd => refuse "a document ends that did not start"
    | _ => do
      modify fun s => { s with handles := standardHandles }
      some <$> node true false fuel
  finish fuel
  return found

end Compose

/-- The root node of a text, if it holds one. -/
def parse (s : String) : Except Fault (Option Node) := do
  let tokens ← tokenize s
  let (root, _) ← (Compose.document (4 * tokens.length + 4)).run ⟨tokens, [], []⟩
  return root

end Stencil.Yaml
