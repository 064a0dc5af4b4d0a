/-
# Compdb.Yaml.FlatMapping — one mapping from scalars to scalars

A flat text is a single document whose root is a mapping in block or flow layout. Keys and
values are scalars, or aliases of scalars before them. Nothing else is read: a nested
collection, a second document or a text without a mapping gives no result.
-/
import Compdb.Yaml.Token

namespace Compdb.Yaml

set_option autoImplicit false

/-- A scalar: its text, whether it was written plainly, and its tag. -/
structure Scalar where
  text : Text
  isPlain : Bool
  tag : Option Text
  deriving DecidableEq, Repr

/-- A flat mapping, in the order of the text. A key can occur several times. -/
abbrev FlatMapping := List (Scalar × Scalar)

/-- The handles of tags, each with what it stands for. -/
abbrev Handles := List (Text × Text)

namespace FlatMapping

/-- The properties in front of a node. -/
structure Properties where
  anchor : Option Text := none
  tag : Option Text := none
  deriving DecidableEq, Repr

/-- A node of the mapping before aliases are followed. -/
inductive Node where
  | alias (name : Text)
  | scalar (anchor : Option Text) (value : Scalar)
  deriving DecidableEq, Repr

def Node.empty : Node := .scalar none ⟨[], true, none⟩

/-- The tag which a handle and a rest stand for. -/
def resolveTag (handles : Handles) (handle rest : Text) : Option Text :=
  if handle.isEmpty then some rest
  else (handles.find? fun pair => pair.1 == handle).map fun pair => pair.2 ++ rest

/-- Takes the properties of a node: at most one anchor and one tag, in any order. -/
def takeProperties (handles : Handles) : List Token → Option (Properties × List Token)
  | .anchor a :: .tag handle rest :: tokens => do
      return (⟨some a, some (← resolveTag handles handle rest)⟩, tokens)
  | .tag handle rest :: .anchor a :: tokens => do
      return (⟨some a, some (← resolveTag handles handle rest)⟩, tokens)
  | .anchor a :: tokens => some (⟨some a, none⟩, tokens)
  | .tag handle rest :: tokens => do
      return (⟨none, some (← resolveTag handles handle rest)⟩, tokens)
  | tokens => some ({}, tokens)

def takeNode (handles : Handles) : List Token → Option (Node × List Token)
  | .alias name :: tokens => some (.alias name, tokens)
  | tokens => do
      let (properties, tokens) ← takeProperties handles tokens
      match tokens with
      | .scalar text isPlain :: tokens =>
          return (.scalar properties.anchor ⟨text, isPlain, properties.tag⟩, tokens)
      | .blockStart :: _ | .flowStart :: _ => none
      | tokens =>
          if properties.anchor.isSome || properties.tag.isSome then
            return (.scalar properties.anchor ⟨[], true, properties.tag⟩, tokens)
          else none

/-- Takes a node, or the empty one before certain tokens. -/
def takeNodeUnless (handles : Handles) (stops : List Token) (tokens : List Token) :
    Option (Node × List Token) :=
  if tokens.head?.any stops.contains then some (.empty, tokens) else takeNode handles tokens

/-- Takes the value behind a key; without a colon it is empty. -/
def takeValue (handles : Handles) (stops : List Token) : List Token → Option (Node × List Token)
  | .value :: tokens => takeNodeUnless handles stops tokens
  | tokens => some (.empty, tokens)

def takeBlockMembers (handles : Handles) :
    Nat → List Token → Option (List (Node × Node) × List Token)
  | 0, _ => none
  | fuel + 1, tokens =>
      match tokens with
      | .blockEnd :: tokens => some ([], tokens)
      | .key :: tokens => do
          let stops := [Token.key, .value, .blockEnd]
          let (key, tokens) ← takeNodeUnless handles stops tokens
          let (value, tokens) ← takeValue handles stops tokens
          let (members, tokens) ← takeBlockMembers handles fuel tokens
          return ((key, value) :: members, tokens)
      | _ => none

/-- Takes a member of a flow mapping. A key without mark has no value. -/
def takeFlowMember (handles : Handles) :
    List Token → Option ((Node × Node) × List Token)
  | .key :: tokens => do
      let stops := [Token.flowEntry, .flowEnd]
      let (key, tokens) ← takeNodeUnless handles (.value :: stops) tokens
      let (value, tokens) ← takeValue handles stops tokens
      return ((key, value), tokens)
  | tokens => do
      let (key, tokens) ← takeNode handles tokens
      return ((key, .empty), tokens)

/-- Takes the members of a flow mapping; a comma before its end is allowed. -/
def takeFlowMembers (handles : Handles) :
    Nat → List Token → Option (List (Node × Node) × List Token)
  | 0, _ => none
  | fuel + 1, tokens =>
      match tokens with
      | .flowEnd :: tokens => some ([], tokens)
      | tokens => do
          let (member, tokens) ← takeFlowMember handles tokens
          match tokens with
          | .flowEnd :: tokens => return ([member], tokens)
          | .flowEntry :: tokens =>
              let (members, tokens) ← takeFlowMembers handles fuel tokens
              return (member :: members, tokens)
          | _ => none

/-- The directives in front of a document. -/
structure Directives where
  hasVersion : Bool := false
  handles : Handles := []
  deriving DecidableEq, Repr

/-- Takes the directives: at most one version, which has to be 1.1 or 1.2, and at most one meaning
for each handle. -/
def takeDirectives (d : Directives) : List Token → Option (Directives × List Token)
  | .version major minor :: tokens =>
      if d.hasVersion || major != 1 || !(minor == 1 || minor == 2) then none
      else takeDirectives { d with hasVersion := true } tokens
  | .tagHandle handle start :: tokens =>
      if d.handles.any fun pair => pair.1 == handle then none
      else takeDirectives { d with handles := d.handles ++ [(handle, start)] } tokens
  | tokens => some (d, tokens)

/-- The handles which need no directive. -/
def defaultHandles : Handles :=
  [(['!'], ['!']), (['!', '!'], "tag:yaml.org,2002:".toList)]

/-- Takes the beginning of the document. Directives need the mark of a document. -/
def takeDocumentStart (tokens : List Token) : Option (Handles × List Token) := do
  let (d, rest) ← takeDirectives {} tokens
  let handles := d.handles ++ defaultHandles
  match rest with
  | .documentStart :: rest => return (handles, rest)
  | rest => if d == {} then return (handles, rest) else none

/-- The scalars which have names, the latest first. -/
abbrev Anchors := List (Text × Scalar)

/-- The scalar of a node, and the names which are known behind it. -/
def resolveNode (anchors : Anchors) : Node → Option (Scalar × Anchors)
  | .alias name => (anchors.find? fun pair => pair.1 == name).map fun pair => (pair.2, anchors)
  | .scalar none value => some (value, anchors)
  | .scalar (some name) value => some (value, (name, value) :: anchors)

/-- The members with their aliases followed. -/
def resolveMembers (anchors : Anchors) : List (Node × Node) → Option FlatMapping
  | [] => some []
  | (key, value) :: members => do
      let (key, anchors) ← resolveNode anchors key
      let (value, anchors) ← resolveNode anchors value
      return (key, value) :: (← resolveMembers anchors members)

/-- Whether the document ends here and nothing follows. -/
def isTextEnd : List Token → Bool
  | .documentEnd :: tokens => isTextEnd tokens
  | [.textEnd] => true
  | _ => false

def ofTokens? (tokens : List Token) : Option FlatMapping := do
  let (handles, tokens) ← takeDocumentStart tokens
  let (_, tokens) ← takeProperties handles tokens
  let (members, tokens) ← (match tokens with
    | .blockStart :: tokens => takeBlockMembers handles (tokens.length + 1) tokens
    | .flowStart :: tokens => takeFlowMembers handles (tokens.length + 1) tokens
    | _ => none)
  if isTextEnd tokens then resolveMembers [] members else none

def ofText? (t : Text) : Option FlatMapping := do
  ofTokens? (← tokens? t)

end FlatMapping

end Compdb.Yaml
