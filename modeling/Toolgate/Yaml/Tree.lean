import Toolgate.Yaml.Lexer
import Toolgate.Yaml.Meaning

/-!
# Trees of nodes

The nodes of a YAML text, each with the kind of value it stands for. An alias is replaced by the
node it names, which must have come before and be complete. A text holds at most one document.

## Main definitions

* `Tree`: the nodes
* `Tree.ofTokens`: the tree that tokens write
* `Tree.read`: the tree that a text writes
-/

namespace Toolgate.Yaml

/-- A node with all that is below it. -/
inductive Tree where
  | scalar (tag : Tag) (text : String)
  | sequence (tag : Tag) (items : List Tree)
  | mapping (tag : Tag) (pairs : List (Tree × Tree))

/-- What is left of a text, and what is known from what was read. -/
structure Feed where
  tokens : List Token
  /-- What the handles of tags stand for. -/
  handles : List (String × String)
  /-- The nodes that have names; none for a node that is not complete. -/
  anchors : List (String × Option Tree)

/-- A reader of tokens. -/
abbrev TreeReader := StateT Feed (Except Fault)

namespace TreeReader

/-- The next token, which is left in its place. -/
def peek : TreeReader Token := do
  match (← get).tokens with
  | [] => pure .textEnd
  | .broken fault :: _ => throw fault
  | token :: _ => pure token

/-- Past the next token. -/
def drop : TreeReader Unit :=
  modify fun feed => { feed with tokens := feed.tokens.drop 1 }

/-- The node where nothing is written. -/
def empty : Tree := .scalar .null ""

/-! ## Properties of nodes -/

/-- A tag in full. -/
def fullTag (name : TagName) : TreeReader String := do
  match name.handle with
  | none => pure name.suffix
  | some handle =>
    match (← get).handles.lookup handle with
    | some meaning => pure (meaning ++ name.suffix)
    | none => throw .malformed

/-- The name of an anchor, if there is one. -/
def anchor? : TreeReader (Option String) := do
  match ← peek with
  | .anchor name => drop; pure (some name)
  | _ => pure none

/-- A tag in full, if there is one. -/
def tag? : TreeReader (Option String) := do
  match ← peek with
  | .tag name => drop; some <$> fullTag name
  | _ => pure none

/-- An anchor and a tag, in either order. -/
def properties : TreeReader (Option String × Option String) := do
  match ← anchor? with
  | some name => pure (some name, ← tag?)
  | none =>
    let tag ← tag?
    pure (← anchor?, tag)

/-- The node that a name stands for. -/
def named (name : String) : TreeReader Tree := do
  match (← get).anchors.lookup name with
  | some (some tree) => pure tree
  | _ => throw .malformed

/-- A name for a node that is not complete. A name is given once. -/
def reserve (name : String) : TreeReader Unit := do
  let feed ← get
  if (feed.anchors.lookup name).isSome then throw .malformed
  else set { feed with anchors := (name, none) :: feed.anchors }

/-- The node of a name, once it is complete. -/
def complete (name : String) (tree : Tree) : TreeReader Unit :=
  modify fun feed => { feed with anchors := (name, some tree) :: feed.anchors }

/-- The kind of a collection: its own, unless a tag gives another. -/
def collectionTag (own : Tag) (tag : Option String) : Tag :=
  match tag with
  | none => own
  | some uri => if uri == "!" then own else .ofUri uri

/-- The kind of a scalar. Without a tag the form decides where the scalar is plain, and with the tag
`!` it always does. -/
def scalarTag (tag : Option String) (text : String) (plain : Bool) : Tag :=
  match tag with
  | none => if plain then plainTag text else .text
  | some uri => if uri == "!" then plainTag text else .ofUri uri

/-! ## Nodes -/

mutual

/-- A node. Block collections have no place between brackets; items without a further indentation
have one only as a key or its value. -/
def node (fuel : Nat) (inBlock indentless : Bool) : TreeReader Tree := do
  match fuel, ← peek with
  | 0, _ => throw .malformed
  | _ + 1, .alias name => drop; named name
  | fuel + 1, _ =>
    let (anchor, tag) ← properties
    match anchor with
    | none => content fuel inBlock indentless tag false
    | some name =>
      reserve name
      let tree ← content fuel inBlock indentless tag true
      complete name tree
      pure tree

/-- A node behind its anchor and tag. One that has either may be empty. -/
def content (fuel : Nat) (inBlock indentless : Bool) (tag : Option String) (anchored : Bool) :
    TreeReader Tree := do
  match fuel, ← peek with
  | 0, _ => throw .malformed
  | _ + 1, .scalar text plain => drop; pure (.scalar (scalarTag tag text plain) text)
  | fuel + 1, .sequenceOpen => drop; .sequence (collectionTag .sequence tag) <$> items fuel true
  | fuel + 1, .mappingOpen => drop; .mapping (collectionTag .mapping tag) <$> fields fuel true
  | fuel + 1, token =>
    match token, inBlock, indentless with
    | .item, _, true => .sequence (collectionTag .sequence tag) <$> indentlessItems fuel
    | .blockSequence, true, _ => drop; .sequence (collectionTag .sequence tag) <$> blockItems fuel
    | .blockMapping, true, _ => drop; .mapping (collectionTag .mapping tag) <$> blockFields fuel
    | _, _, _ =>
      if anchored || tag.isSome then pure (.scalar (scalarTag tag "" true) "")
      else throw .malformed

/-- The items of a block sequence. -/
def blockItems (fuel : Nat) : TreeReader (List Tree) := do
  match fuel, ← peek with
  | fuel + 1, .item =>
    drop
    let first ← match ← peek with
      | .item | .blockEnd => pure empty
      | _ => node fuel true false
    (first :: ·) <$> blockItems fuel
  | _ + 1, .blockEnd => drop; pure []
  | _, _ => throw .malformed

/-- The items of a sequence that is not indented further than the key ahead of it. -/
def indentlessItems (fuel : Nat) : TreeReader (List Tree) := do
  match fuel, ← peek with
  | 0, _ => throw .malformed
  | fuel + 1, .item =>
    drop
    let first ← match ← peek with
      | .item | .key | .value | .blockEnd => pure empty
      | _ => node fuel true false
    (first :: ·) <$> indentlessItems fuel
  | _ + 1, _ => pure []

/-- A key of a block mapping, or its value, where either may be empty. -/
def blockPart (fuel : Nat) : TreeReader Tree := do
  match fuel, ← peek with
  | 0, _ => throw .malformed
  | _ + 1, .key | _ + 1, .value | _ + 1, .blockEnd => pure empty
  | fuel + 1, _ => node fuel true true

/-- The fields of a block mapping. -/
def blockFields (fuel : Nat) : TreeReader (List (Tree × Tree)) := do
  match fuel, ← peek with
  | fuel + 1, .key =>
    drop
    let key ← blockPart fuel
    let value ← match ← peek with
      | .value => drop; blockPart fuel
      | _ => pure empty
    ((key, value) :: ·) <$> blockFields fuel
  | _ + 1, .blockEnd => drop; pure []
  | _, _ => throw .malformed

/-- A key between brackets, or its value, where either may be empty. -/
def part (fuel : Nat) : TreeReader Tree := do
  match fuel, ← peek with
  | 0, _ => throw .malformed
  | _ + 1, .value | _ + 1, .comma | _ + 1, .sequenceClose | _ + 1, .mappingClose => pure empty
  | fuel + 1, _ => node fuel false false

/-- A field between brackets whose key mark has been passed. -/
def field (fuel : Nat) : TreeReader (Tree × Tree) := do
  match fuel with
  | 0 => throw .malformed
  | fuel + 1 =>
    let key ← part fuel
    match ← peek with
    | .value =>
      drop
      match ← peek with
      | .value => throw .malformed
      | _ => pure (key, ← part fuel)
    | _ => pure (key, empty)

/-- The items up to a closing bracket, with a comma ahead of all but the first. A field on its own
is an item that is a mapping. -/
def items (fuel : Nat) (first : Bool) : TreeReader (List Tree) := do
  match fuel, ← peek with
  | 0, _ => throw .malformed
  | _ + 1, .sequenceClose => drop; pure []
  | fuel + 1, token =>
    if !first then
      match token with
      | .comma => drop
      | _ => throw .malformed
    match ← peek with
    | .sequenceClose => drop; pure []
    | .key =>
      drop
      let pair ← field fuel
      (.mapping .mapping [pair] :: ·) <$> items fuel false
    | _ =>
      let item ← node fuel false false
      (item :: ·) <$> items fuel false

/-- The fields up to a closing brace, with a comma ahead of all but the first. A node on its own is
a key without a value. -/
def fields (fuel : Nat) (first : Bool) : TreeReader (List (Tree × Tree)) := do
  match fuel, ← peek with
  | 0, _ => throw .malformed
  | _ + 1, .mappingClose => drop; pure []
  | fuel + 1, token =>
    if !first then
      match token with
      | .comma => drop
      | _ => throw .malformed
    match ← peek with
    | .mappingClose => drop; pure []
    | .key =>
      drop
      let pair ← field fuel
      (pair :: ·) <$> fields fuel false
    | _ =>
      let key ← node fuel false false
      ((key, empty) :: ·) <$> fields fuel false

end

/-! ## Documents -/

/-- What the handles of tags stand for when no directive says otherwise. -/
def standardHandles : List (String × String) :=
  [("!", "!"), ("!!", standardPrefix)]

/-- Past the directives ahead of a document, those still to come being at most `fuel` many. The
version is given at most once, and so is the meaning of a handle. -/
def directives (fuel : Nat) (versioned : Bool) : TreeReader Unit := do
  match fuel, ← peek with
  | fuel + 1, .version major =>
    if versioned || major != 1 then throw .malformed
    drop
    directives fuel true
  | fuel + 1, .tagHandle handle meaning =>
    let feed ← get
    if (feed.handles.lookup handle).isSome then throw .malformed
    set { feed with handles := (handle, meaning) :: feed.handles }
    drop
    directives fuel versioned
  | fuel + 1, .otherDirective => drop; directives fuel versioned
  | _, _ => modify fun feed => { feed with handles := feed.handles ++ standardHandles }

/-- The document behind its directives and its mark. -/
def markedDocument (fuel : Nat) : TreeReader Tree := do
  directives fuel false
  match ← peek with
  | .documentStart =>
    drop
    match ← peek with
    | .version _ | .tagHandle _ _ | .otherDirective | .documentStart | .documentEnd | .textEnd =>
      pure empty
    | _ => node fuel true false
  | _ => throw .malformed

/-- The document without directives and mark. -/
def bareDocument (fuel : Nat) : TreeReader Tree := do
  modify fun feed => { feed with handles := standardHandles }
  node fuel true false

/-- Past marks for the end of a document, at most `fuel` many, to the end of the text. -/
def ending : Nat → TreeReader Unit
  | 0 => throw .malformed
  | fuel + 1 => do
    match ← peek with
    | .documentEnd => drop; ending fuel
    | .textEnd => pure ()
    | _ => throw .malformed

/-- The one document of a text; none when the text is empty. -/
def document (fuel : Nat) : TreeReader (Option Tree) := do
  match ← peek with
  | .textEnd => pure none
  | .version _ | .tagHandle _ _ | .otherDirective | .documentStart =>
    let tree ← markedDocument fuel
    ending fuel
    pure (some tree)
  | _ =>
    let tree ← bareDocument fuel
    ending fuel
    pure (some tree)

end TreeReader

/-- The tree that tokens write. Of four steps of the reader one at least takes a token. -/
def Tree.ofTokens (tokens : List Token) : Except Fault (Option Tree) :=
  (TreeReader.document (4 * tokens.length + 4)).run' ⟨tokens, [], []⟩

/-- The tree that a text writes; none for an empty text. -/
def Tree.read (text : String) : Except Fault (Option Tree) :=
  Tree.ofTokens (tokens text)

end Toolgate.Yaml
