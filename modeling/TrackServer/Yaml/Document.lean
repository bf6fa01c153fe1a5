import TrackServer.Yaml.Token.Lexer

/-!
# Yaml/Document — flat YAML documents

A flat document is one mapping of scalars to scalars, or nothing at all.  `Document.ofText` reads a
text that holds one such document and refuses every other, in two steps: the tokens are put together
to entries of nodes, and the aliases among the nodes are replaced by what they stand for.

A scalar that is left out is the empty plain one.
-/

namespace TrackServer.Yaml

/-- A text in a document, how it is written, and its tag. -/
structure Scalar where
  text : List Char
  style : Style
  tag : Option TagText
  deriving DecidableEq

/-- The scalar that is left out. -/
def Scalar.empty : Scalar :=
  ⟨[], .plain, none⟩

/-- A scalar, perhaps with an anchor, or an alias. -/
inductive Node
  | scalar (scalar : Scalar) (anchor : Option (List Char))
  | alias (name : List Char)

/-- The node that is left out. -/
def Node.empty : Node :=
  .scalar .empty none

/-- The entries of a mapping as they are written, and its anchor. -/
structure Mapping where
  anchor : Option (List Char)
  entries : List (Node × Node)

/-! ## Tags -/

/-- The handles and their meanings. -/
abbrev Handles := List (List Char × TagText)

/-- The handles that need no directive. -/
def standardHandles : Handles :=
  [(['!'], .ofChars ['!']), (['!', '!'], .ofChars "tag:yaml.org,2002:".toList)]

/-- The tag of a handle and a suffix. -/
def tagOf (handles : Handles) (handle : List Char) (suffix : TagText) : Except Fault TagText :=
  if handle = [] then .ok suffix
  else
    match handles.lookup handle with
    | none => .error .invalidTag
    | some meaning => .ok (meaning ++ suffix)

/-! ## Nodes -/

/-- The anchor and the tag in front of a node, in either order. -/
structure Properties where
  anchor : Option (List Char)
  tag : Option TagText

/-- Whether there is an anchor or a tag. -/
def Properties.isPresent (properties : Properties) : Bool :=
  properties.anchor.isSome || properties.tag.isSome

/-- The properties at the front of tokens. -/
def takeProperties (handles : Handles) : List Token → Except Fault (Properties × List Token)
  | .anchor name :: .tag handle suffix :: rest
  | .tag handle suffix :: .anchor name :: rest => do
    return (⟨some name, some (← tagOf handles handle suffix)⟩, rest)
  | .anchor name :: rest => .ok (⟨some name, none⟩, rest)
  | .tag handle suffix :: rest => do
    return (⟨none, some (← tagOf handles handle suffix)⟩, rest)
  | rest => .ok (⟨none, none⟩, rest)

/-- The node at the front of tokens. -/
def takeNode (handles : Handles) : List Token → Except Fault (Node × List Token)
  | .alias name :: rest => .ok (.alias name, rest)
  | tokens => do
    let (properties, rest) ← takeProperties handles tokens
    match rest with
    | .scalar text style :: rest =>
      return (.scalar ⟨text, style, properties.tag⟩ properties.anchor, rest)
    | .mappingStart :: _ | .flowStart :: _ => throw .nested
    | rest =>
      if properties.isPresent then
        return (.scalar { Scalar.empty with tag := properties.tag } properties.anchor, rest)
      else throw .disorder

/-- The node at the front of tokens, or the empty one where a token shows that it is left out. -/
def takeNodeUnless (handles : Handles) (stops : List Token) (tokens : List Token) :
    Except Fault (Node × List Token) :=
  if tokens.head?.any stops.contains then .ok (.empty, tokens) else takeNode handles tokens

/-! ## Entries -/

/-- A value behind its mark, or the empty node where there is no mark. -/
def takeValue (handles : Handles) (stops : List Token) :
    List Token → Except Fault (Node × List Token)
  | .value :: rest => takeNodeUnless handles stops rest
  | tokens => .ok (.empty, tokens)

/-- The entries of a block mapping. -/
def blockEntries (handles : Handles) :
    Nat → List Token → Except Fault (List (Node × Node) × List Token)
  | _, .mappingEnd :: rest => .ok ([], rest)
  | rounds + 1, .key :: rest => do
    let stops := [Token.key, .value, .mappingEnd]
    let (key, rest) ← takeNodeUnless handles stops rest
    let (value, rest) ← takeValue handles stops rest
    let (more, rest) ← blockEntries handles rounds rest
    return ((key, value) :: more, rest)
  | _, _ => .error .disorder

/-- One entry of a flow mapping.  A node without the mark of keys is a key without a value. -/
def flowItem (handles : Handles) : List Token → Except Fault ((Node × Node) × List Token)
  | .key :: rest => do
    let (key, rest) ← takeNodeUnless handles [.value, .flowEntry, .flowEnd] rest
    let (value, rest) ← takeValue handles [.flowEntry, .flowEnd] rest
    return ((key, value), rest)
  | tokens => do
    let (key, rest) ← takeNode handles tokens
    return ((key, .empty), rest)

/-- The entries of a flow mapping.  A comma may stand behind the last one. -/
def flowEntries (handles : Handles) :
    Nat → List Token → Except Fault (List (Node × Node) × List Token)
  | _, .flowEnd :: rest => .ok ([], rest)
  | 0, _ => .error .disorder
  | rounds + 1, tokens => do
    let (entry, rest) ← flowItem handles tokens
    match rest with
    | .flowEntry :: rest =>
      let (more, rest) ← flowEntries handles rounds rest
      return (entry :: more, rest)
    | .flowEnd :: rest => return ([entry], rest)
    | _ => throw .disorder

/-! ## Documents -/

/-- The directives in front of a document: whether the version was given, and the handles. -/
def takeDirectives (versioned : Bool) (handles : Handles) :
    List Token → Except Fault (Handles × List Token)
  | .version major minor :: rest =>
    if versioned ∨ major ≠ 1 ∨ (minor ≠ 1 ∧ minor ≠ 2) then .error .invalidDirective
    else takeDirectives true handles rest
  | .tagHandle handle meaning :: rest =>
    if (handles.lookup handle).isSome then .error .invalidDirective
    else takeDirectives versioned (handles ++ [(handle, meaning)]) rest
  | rest => .ok (handles, rest)

/-- The mapping of a document and the tokens behind it. -/
def takeRoot (handles : Handles) (tokens : List Token) : Except Fault (Mapping × List Token) := do
  let (properties, rest) ← takeProperties handles tokens
  match rest with
  | .mappingStart :: rest =>
    let (entries, rest) ← blockEntries handles rest.length rest
    return (⟨properties.anchor, entries⟩, rest)
  | .flowStart :: rest =>
    let (entries, rest) ← flowEntries handles rest.length rest
    return (⟨properties.anchor, entries⟩, rest)
  | .scalar .. :: _ => throw .notMapping
  | .alias _ :: _ => throw .unknownAlias
  | rest => if properties.isPresent then return (⟨properties.anchor, []⟩, rest) else throw .disorder

/-- Whether tokens behind the start of a document leave it empty. -/
def isBareDocument : List Token → Bool
  | [] => true
  | .version .. :: _ | .tagHandle .. :: _ | .documentStart :: _ | .documentEnd :: _ => true
  | _ => false

/-- The mapping of the first document and the tokens behind it.  Only behind directives the start of
the document has to be marked. -/
def takeDocument : List Token → Except Fault (Mapping × List Token)
  | [] => .ok (⟨none, []⟩, [])
  | tokens@(.version .. :: _) | tokens@(.tagHandle .. :: _) | tokens@(.documentStart :: _) => do
    let (handles, rest) ← takeDirectives false [] tokens
    match rest with
    | .documentStart :: rest =>
      if isBareDocument rest then return (⟨none, []⟩, rest)
      else takeRoot (handles ++ standardHandles) rest
    | _ => throw .disorder
  | tokens => takeRoot standardHandles tokens

/-- **The mapping that tokens hold**, if they hold one document. -/
def Mapping.ofTokens (tokens : List Token) : Except Fault Mapping := do
  let (mapping, rest) ← takeDocument tokens
  if rest.all (· == .documentEnd) then return mapping else throw .severalDocuments

/-! ## Aliases

Anchors are numbered by how many names are known where they stand.  A name that is used again is
known already, so its new number may be given to a further anchor too; an alias stands for what the
last anchor with its number marks. -/

/-- The names known so far with their numbers, and what the numbers stand for, last first.  A
mapping is nothing that an alias may stand for. -/
structure Anchors where
  numbers : List (List Char × Nat)
  targets : List (Nat × Option Scalar)

namespace Anchors

/-- No anchor yet. -/
def none : Anchors :=
  ⟨[], []⟩

/-- One more anchor, if there is one. -/
def mark (anchors : Anchors) (anchor : Option (List Char)) (target : Option Scalar) : Anchors :=
  match anchor with
  | .none => anchors
  | some name =>
    let number := anchors.numbers.length
    ⟨(name, number) :: anchors.numbers.filter (·.1 ≠ name), (number, target) :: anchors.targets⟩

/-- What a number stands for. -/
def target? (anchors : Anchors) (number : Nat) : Option Scalar :=
  (anchors.targets.lookup number).join

end Anchors

/-- A scalar, or the number of the anchor that an alias names. -/
inductive Reference
  | scalar (scalar : Scalar)
  | number (number : Nat)

/-- What a node refers to, and the anchors behind it. -/
def Node.refer (anchors : Anchors) : Node → Except Fault (Reference × Anchors)
  | .scalar found anchor => .ok (.scalar found, anchors.mark anchor (some found))
  | .alias name =>
    match anchors.numbers.lookup name with
    | .none => .error .unknownAlias
    | some number => .ok (.number number, anchors)

/-- What the nodes of entries refer to, in the order in which they are written. -/
def refer (anchors : Anchors) :
    List (Node × Node) → Except Fault (List (Reference × Reference) × Anchors)
  | [] => .ok ([], anchors)
  | (key, value) :: rest => do
    let (key, anchors) ← key.refer anchors
    let (value, anchors) ← value.refer anchors
    let (rest, anchors) ← refer anchors rest
    return ((key, value) :: rest, anchors)

/-- The scalar of a reference. -/
def Reference.resolve (anchors : Anchors) : Reference → Except Fault Scalar
  | .scalar found => .ok found
  | .number n =>
    match anchors.target? n with
    | .none => .error .nested
    | some found => .ok found

/-- A flat document: its entries in order. -/
structure Document where
  entries : List (Scalar × Scalar)

/-- The document of a mapping, its aliases replaced. -/
def Mapping.resolve (mapping : Mapping) : Except Fault Document := do
  let (references, anchors) ← refer (Anchors.none.mark mapping.anchor .none) mapping.entries
  return ⟨← references.mapM fun (key, value) => do
    return (← key.resolve anchors, ← value.resolve anchors)⟩

/-- **The flat document of a text.** -/
def Document.ofText (text : String) : Except Fault Document := do
  (← Mapping.ofTokens (← Token.ofText text.toList)).resolve

end TrackServer.Yaml
