import TrackServer.Yaml.Token

/-!
# Yaml/Token/Lexer — a YAML text cut into tokens

The lexer walks over a text once.  That a scalar is a key shows only at the colon behind it, so the
lexer remembers where a key may have started (`KeyPlace`) and puts the tokens of the key in front of
it when the colon comes.  Such a key stands on one line and has at most 1024 characters.

Only flat documents are of use here: a sequence, or a mapping inside the mapping, is refused as soon
as it starts.  So one column is all there is to know about the indentation.
-/

namespace TrackServer.Yaml

/-- A place where a key may have started. -/
structure KeyPlace where
  /-- How many tokens stood before it. -/
  token : Nat
  index : Nat
  line : Nat
  column : Nat
  /-- Whether nothing but a key can stand there. -/
  required : Bool

/-- The lexer between two tokens. -/
structure Lexer where
  cursor : Cursor
  tokens : Array Token
  /-- The column of the block mapping, if the lexer is inside one. -/
  indent : Option Nat
  /-- Whether the lexer is inside a flow mapping. -/
  inFlow : Bool
  /-- Whether a key may start at the next token. -/
  keyAllowed : Bool
  /-- Where a key may have started outside flow mappings. -/
  blockKey : Option KeyPlace
  /-- Where a key may have started inside the flow mapping. -/
  flowKey : Option KeyPlace

namespace Lexer

/-- The most characters of a key without a question mark. -/
def keyLimit : Nat := 1024

/-- The lexer at the start of a text. -/
def ofText (text : List Char) : Lexer :=
  ⟨Cursor.ofText text, #[], none, false, true, none, none⟩

variable (lexer : Lexer)

/-! ## Places of keys -/

/-- The place that counts where the lexer is. -/
def keyPlace : Option KeyPlace :=
  if lexer.inFlow then lexer.flowKey else lexer.blockKey

/-- Set the place that counts where the lexer is. -/
def setKeyPlace (place : Option KeyPlace) : Lexer :=
  if lexer.inFlow then { lexer with flowKey := place } else { lexer with blockKey := place }

/-- Give a place up; where a key is required that is a fault. -/
def giveUp (place : Option KeyPlace) : Except Fault Unit :=
  if place.any (·.required) then .error .misplacedKey else .ok ()

/-- Forget the place that counts. -/
def dropKey : Except Fault Lexer := do
  giveUp lexer.keyPlace
  return lexer.setKeyPlace none

/-- Remember this place, if a key may start here. -/
def saveKey : Except Fault Lexer := do
  if lexer.keyAllowed then
    let lexer ← lexer.dropKey
    let cursor := lexer.cursor
    let required := !lexer.inFlow && lexer.indent == some cursor.column
    let place := ⟨lexer.tokens.size, cursor.index, cursor.line, cursor.column, required⟩
    return lexer.setKeyPlace (some place)
  else return lexer

/-- Whether a key that started at a place can no longer end here. -/
def isStale (place : KeyPlace) : Bool :=
  place.line < lexer.cursor.line || place.index + keyLimit < lexer.cursor.index

/-- Give up the places whose keys can no longer end here. -/
def dropStale : Except Fault Lexer := do
  giveUp (lexer.blockKey.filter lexer.isStale)
  giveUp (lexer.flowKey.filter lexer.isStale)
  return { lexer with
    blockKey := lexer.blockKey.filter (!lexer.isStale ·)
    flowKey := lexer.flowKey.filter (!lexer.isStale ·) }

/-! ## Indentation -/

/-- End the block mapping if the lexer stands to the left of it. -/
def unroll (column : Option Nat) : Lexer :=
  match lexer.indent with
  | none => lexer
  | some indent =>
    if lexer.inFlow || column.any (indent ≤ ·) then lexer
    else { lexer with tokens := lexer.tokens.push .mappingEnd, indent := none }

/-- Start a block mapping at a column, before the token of a number, unless one is there already. -/
def roll (column number : Nat) : Except Fault Lexer :=
  if lexer.inFlow then .ok lexer
  else
    match lexer.indent with
    | none =>
      .ok { lexer with
        tokens := lexer.tokens.insertIdxIfInBounds number .mappingStart
        indent := some column }
    | some indent => if indent < column then .error .nested else .ok lexer

/-! ## Tokens -/

/-- Add a token and go on at a cursor. -/
def push (token : Token) (cursor : Cursor) : Lexer :=
  { lexer with tokens := lexer.tokens.push token, cursor }

/-- Say whether a key may start at the next token. -/
def allowKey (allowed : Bool) : Lexer :=
  { lexer with keyAllowed := allowed }

/-- Go over blanks, comments and line ends.  A byte order mark may start any line and takes one
column of it.  Outside flow mappings a tab is a blank only where no key may start, and a new line
may start one. -/
def skipToToken : Nat → Lexer → Lexer
  | 0, lexer => lexer
  | rounds + 1, lexer =>
    let start :=
      if lexer.cursor.column == 0 && lexer.cursor.at? orderMark then lexer.cursor.skip 1
      else lexer.cursor
    let blank (c : Char) : Bool := c == ' ' || ((lexer.inFlow || !lexer.keyAllowed) && c == '\t')
    let cursor := (start.skipWhile blank).skipComment
    if (cursor.peek 0).any isBreak then
      skipToToken rounds
        { lexer with cursor := cursor.takeBreak.2, keyAllowed := lexer.keyAllowed || !lexer.inFlow }
    else { lexer with cursor }

/-- A directive. -/
def directive : Except Fault Lexer := do
  let lexer ← (lexer.unroll none).dropKey
  let (token, cursor) ← takeDirective lexer.cursor
  return (lexer.push token cursor).allowKey false

/-- A document marker. -/
def marker (token : Token) : Except Fault Lexer := do
  let lexer ← (lexer.unroll none).dropKey
  return (lexer.push token (lexer.cursor.skip 3)).allowKey false

/-- The start of the flow mapping. -/
def openFlow : Except Fault Lexer := do
  if lexer.inFlow then throw .nested
  let lexer ← lexer.saveKey
  return { (lexer.push .flowStart (lexer.cursor.skip 1)).allowKey true with
    inFlow := true, flowKey := none }

/-- The end of the flow mapping. -/
def closeFlow : Except Fault Lexer := do
  if !lexer.inFlow then throw .disorder
  let lexer ← lexer.dropKey
  return { (lexer.push .flowEnd (lexer.cursor.skip 1)).allowKey false with
    inFlow := false, flowKey := none }

/-- A comma between entries. -/
def entry : Except Fault Lexer := do
  let lexer ← lexer.dropKey
  return (lexer.push .flowEntry (lexer.cursor.skip 1)).allowKey true

/-- The question mark in front of a key. -/
def explicitKey : Except Fault Lexer := do
  if !lexer.inFlow && !lexer.keyAllowed then throw .misplacedKey
  let lexer ← lexer.roll lexer.cursor.column lexer.tokens.size
  let lexer ← lexer.dropKey
  return (lexer.push .key (lexer.cursor.skip 1)).allowKey (!lexer.inFlow)

/-- The colon in front of a value.  It makes a key of what started at the remembered place. -/
def colon : Except Fault Lexer := do
  match lexer.keyPlace with
  | some place =>
    let keyed := { lexer with tokens := lexer.tokens.insertIdxIfInBounds place.token .key }
    let lexer ← (keyed.setKeyPlace none).roll place.column place.token
    return (lexer.push .value (lexer.cursor.skip 1)).allowKey false
  | none =>
    if !lexer.inFlow && !lexer.keyAllowed then throw .misplacedValue
    let lexer ← lexer.roll lexer.cursor.column lexer.tokens.size
    return (lexer.push .value (lexer.cursor.skip 1)).allowKey (!lexer.inFlow)

/-- An anchor or an alias. -/
def name (token : List Char → Token) : Except Fault Lexer := do
  let lexer ← lexer.saveKey
  let (name, cursor) ← takeName lexer.cursor
  return (lexer.push (token name) cursor).allowKey false

/-- A tag. -/
def tag : Except Fault Lexer := do
  let lexer ← lexer.saveKey
  let (token, cursor) ← takeTag lexer.inFlow lexer.cursor
  return (lexer.push token cursor).allowKey false

/-- A block scalar. -/
def blockScalar (style : Style) : Except Fault Lexer := do
  let lexer ← lexer.dropKey
  let (text, cursor) ← takeBlock (style == .folded) lexer.indent lexer.cursor
  return (lexer.push (.scalar text style) cursor).allowKey true

/-- A quoted scalar. -/
def quotedScalar (quote : Char) : Except Fault Lexer := do
  let lexer ← lexer.saveKey
  let (text, cursor) ← takeQuoted quote lexer.cursor
  return (lexer.push (.scalar text .quoted) cursor).allowKey false

/-- A plain scalar.  When a line end follows it, a key may start behind it. -/
def plainScalar : Except Fault Lexer := do
  let lexer ← lexer.saveKey
  let (text, broken, cursor) ←
    takePlain lexer.inFlow (lexer.indent.elim 0 (· + 1)) lexer.cursor
  return (lexer.push (.scalar text .plain) cursor).allowKey broken

/-- Whether a plain scalar may start with a character that another one follows. -/
def startsPlain (inFlow : Bool) (c : Char) (next : Option Char) : Bool :=
  if c == '-' then !next.any isBlank
  else if c == '?' || c == ':' then !inFlow && !endsWord next
  else !isBlank c && !"[]\x7b\x7d,#&*!|>'\"%@\x60".contains c

/-- The token that starts with a character. -/
def next (c : Char) : Except Fault Lexer :=
  let follows := lexer.cursor.peek 1
  let marks := lexer.inFlow || endsWord follows
  if lexer.cursor.column == 0 && c == '%' then lexer.directive
  else if lexer.cursor.atMarker '-' then lexer.marker .documentStart
  else if lexer.cursor.atMarker '.' then lexer.marker .documentEnd
  else if c == '[' || c == ']' || (c == '-' && endsWord follows) then .error .nested
  else if c == '\x7b' then lexer.openFlow
  else if c == '\x7d' then lexer.closeFlow
  else if c == ',' then lexer.entry
  else if c == '?' && marks then lexer.explicitKey
  else if c == ':' && marks then lexer.colon
  else if c == '*' then lexer.name .alias
  else if c == '&' then lexer.name .anchor
  else if c == '!' then lexer.tag
  else if c == '|' && !lexer.inFlow then lexer.blockScalar .literal
  else if c == '>' && !lexer.inFlow then lexer.blockScalar .folded
  else if c == '\'' || c == '"' then lexer.quotedScalar c
  else if startsPlain lexer.inFlow c follows then lexer.plainScalar
  else .error .strayCharacter

/-- The end of the text. -/
def finish : Except Fault (Array Token) := do
  return (← (lexer.unroll none).dropKey).tokens

/-- The tokens from here to the end of the text. -/
def run : Nat → Lexer → Except Fault (Array Token)
  | 0, lexer => lexer.finish
  | rounds + 1, lexer => do
    let lexer ← (skipToToken lexer.cursor.bound lexer).dropStale
    let lexer := lexer.unroll (some lexer.cursor.column)
    match lexer.cursor.peek 0 with
    | none => lexer.finish
    | some c => run rounds (← lexer.next c)

end Lexer

/-- **The tokens of a text.** -/
def Token.ofText (text : List Char) : Except Fault (List Token) :=
  if text.all isPrintable then
    let lexer := Lexer.ofText text
    (lexer.run lexer.cursor.bound).map Array.toList
  else .error .controlCharacter

end TrackServer.Yaml
