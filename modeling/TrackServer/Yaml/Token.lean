import TrackServer.Yaml.Scalar

/-!
# Yaml/Token — the pieces of a YAML text

A text falls into tokens: directives and document markers, the starts and ends of mappings, the
marks of keys and values, and scalars with the anchors, aliases and tags in front of them.

This module holds the tokens and reads those that are one word; the lexer puts a text together from
them.
-/

namespace TrackServer.Yaml

/-- A tag or a part of one, as octets.  Escapes write single octets, so these need not encode a
text. -/
abbrev TagText := List UInt8

/-- The tag text of ASCII characters. -/
def TagText.ofChars (characters : List Char) : TagText :=
  characters.map Char.toUInt8

/-- What counts of a tag text: a zero octet ends it. -/
def TagText.untilZero (text : TagText) : TagText :=
  text.takeWhile (· != 0)

/-- One piece of a text. -/
inductive Token
  /-- The version directive. -/
  | version (major minor : Nat)
  /-- A directive that gives a tag handle its meaning. -/
  | tagHandle (handle : List Char) (meaning : TagText)
  | documentStart
  | documentEnd
  | mappingStart
  | mappingEnd
  | flowStart
  | flowEnd
  | flowEntry
  | key
  | value
  | anchor (name : List Char)
  | alias (name : List Char)
  | tag (handle : List Char) (suffix : TagText)
  | scalar (text : List Char) (style : Style)
  deriving DecidableEq

/-! ## Names -/

/-- The name of an anchor or an alias behind its sign. -/
def takeName (cursor : Cursor) : Except Fault (List Char × Cursor) :=
  let (name, behind) := (cursor.skip 1).takeWhile isWordCharacter
  let next := behind.peek 0
  if name ≠ [] ∧ (endsWord next ∨ next.any fun c => "?:,]\x7d%@\x60".contains c) then
    .ok (name, behind)
  else .error .invalidAnchor

/-! ## Tags -/

/-- The characters of a tag, besides those of names.  Those of flow sequences are among them only
where no flow collection can end. -/
def isTagCharacter (verbatim : Bool) (c : Char) : Bool :=
  isWordCharacter c || ";/?:@&=+$.!~*'()".contains c || (verbatim && ",[]".contains c)

/-- How many octets follow the first one in the encoding of a character. -/
def trailingOctets? (octet : UInt8) : Option Nat :=
  if octet < 0x80 then some 0
  else if octet < 0xC0 then none
  else if octet < 0xE0 then some 1
  else if octet < 0xF0 then some 2
  else if octet < 0xF8 then some 3
  else none

/-- The octet of an escape in a tag. -/
def takeOctet (cursor : Cursor) : Except Fault (UInt8 × Cursor) :=
  match cursor.rest with
  | '%' :: high :: low :: _ =>
    match hexValue? high, hexValue? low with
    | some h, some l => .ok ((h * 16 + l).toUInt8, cursor.skip 3)
    | _, _ => .error .invalidTag
  | _ => .error .invalidTag

/-- Further octets of an escaped character, put in front of those before them. -/
def takeTrailing : Nat → TagText → Cursor → Except Fault (TagText × Cursor)
  | 0, reversed, cursor => .ok (reversed, cursor)
  | count + 1, reversed, cursor => do
    let (octet, cursor) ← takeOctet cursor
    if 0x80 ≤ octet ∧ octet < 0xC0 then takeTrailing count (octet :: reversed) cursor
    else .error .invalidTag

/-- The octets of an escaped character, put in front of those before it.  Their number has to fit
the first one, but they may encode a character in more octets than it needs. -/
def takeTagEscape (reversed : TagText) (cursor : Cursor) : Except Fault (TagText × Cursor) := do
  let (octet, cursor) ← takeOctet cursor
  match trailingOctets? octet with
  | none => .error .invalidTag
  | some count => takeTrailing count (octet :: reversed) cursor

/-- The octets of a tag from the cursor on, back to front. -/
def tagLoop (verbatim : Bool) : Nat → TagText → Cursor → Except Fault (TagText × Cursor)
  | 0, reversed, cursor => .ok (reversed, cursor)
  | rounds + 1, reversed, cursor =>
    match cursor.peek 0 with
    | none => .ok (reversed, cursor)
    | some c =>
      if c == '%' then do
        let (reversed, cursor) ← takeTagEscape reversed cursor
        tagLoop verbatim rounds reversed cursor
      else if isTagCharacter verbatim c then
        tagLoop verbatim rounds (c.toUInt8 :: reversed) (cursor.skip 1)
      else .ok (reversed, cursor)

/-- The octets of a tag from the cursor on, those behind a zero octet included. -/
def takeTagText (verbatim : Bool) (cursor : Cursor) : Except Fault (TagText × Cursor) := do
  let (reversed, cursor) ← tagLoop verbatim cursor.bound [] cursor
  return (reversed.reverse, cursor)

/-- An exclamation mark, the name behind it, and a second mark if there is one. -/
def takeHandle (cursor : Cursor) : Except Fault (List Char × Cursor) :=
  if cursor.at? '!' then
    let (name, behind) := (cursor.skip 1).takeWhile isWordCharacter
    if behind.at? '!' then .ok ('!' :: name ++ ['!'], behind.skip 1)
    else .ok ('!' :: name, behind)
  else .error .invalidTag

/-- Whether a handle has both its marks. -/
def isClosedHandle (handle : List Char) : Bool :=
  1 < handle.length && handle.getLast? == some '!'

/-- The handle and the suffix of the tag here: verbatim between angle brackets, or a suffix behind a
handle.  A single mark alone is a tag of its own. -/
def takeTagParts (cursor : Cursor) : Except Fault (List Char × TagText × Cursor) :=
  if cursor.peek 1 == some '<' then do
    let (text, cursor) ← takeTagText true (cursor.skip 2)
    if text ≠ [] ∧ cursor.at? '>' then return ([], text.untilZero, cursor.skip 1)
    else .error .invalidTag
  else do
    let (handle, cursor) ← takeHandle cursor
    let (suffix, cursor) ← takeTagText false cursor
    if isClosedHandle handle then
      if suffix = [] then .error .invalidTag else return (handle, suffix.untilZero, cursor)
    else
      match TagText.untilZero (.ofChars (handle.drop 1) ++ suffix) with
      | [] => return ([], .ofChars ['!'], cursor)
      | suffix => return (['!'], suffix, cursor)

/-- The tag here.  A word ends behind it; inside a flow collection a comma may. -/
def takeTag (inFlow : Bool) (cursor : Cursor) : Except Fault (Token × Cursor) := do
  let (handle, suffix, cursor) ← takeTagParts cursor
  if endsWord (cursor.peek 0) || (inFlow && cursor.at? ',') then
    return (.tag handle suffix, cursor)
  else .error .invalidTag

/-! ## Directives -/

/-- A number of a version: one to nine digits. -/
def takeVersionNumber (cursor : Cursor) : Except Fault (Nat × Cursor) :=
  let (digits, behind) := cursor.takeWhile Char.isDigit
  if digits = [] ∨ 9 < digits.length then .error .invalidDirective
  else .ok (digits.foldl (fun n c => n * 10 + (c.toNat - '0'.toNat)) 0, behind)

/-- The value of a version directive. -/
def takeVersion (cursor : Cursor) : Except Fault (Token × Cursor) := do
  let (major, cursor) ← takeVersionNumber (cursor.skipWhile isBlank)
  if cursor.at? '.' then
    let (minor, cursor) ← takeVersionNumber (cursor.skip 1)
    return (.version major minor, cursor)
  else .error .invalidDirective

/-- The value of a tag directive: a handle and its meaning. -/
def takeTagHandle (cursor : Cursor) : Except Fault (Token × Cursor) := do
  let (handle, cursor) ← takeHandle (cursor.skipWhile isBlank)
  if !isClosedHandle handle && handle ≠ ['!'] then .error .invalidDirective
  else if !(cursor.peek 0).any isBlank then .error .invalidDirective
  else
    let (meaning, cursor) ← takeTagText true (cursor.skipWhile isBlank)
    if meaning ≠ [] ∧ endsWord (cursor.peek 0) then
      return (.tagHandle handle meaning.untilZero, cursor)
    else .error .invalidDirective

/-- The directive at a percent sign, and the cursor on the next line. -/
def takeDirective (cursor : Cursor) : Except Fault (Token × Cursor) := do
  let (name, behind) := (cursor.skip 1).takeWhile isWordCharacter
  if !endsWord (behind.peek 0) then throw .invalidDirective
  let (token, cursor) ←
    if name = "YAML".toList then takeVersion behind
    else if name = "TAG".toList then takeTagHandle behind
    else .error .invalidDirective
  match cursor.finishLine with
  | some cursor => return (token, cursor)
  | none => throw .invalidDirective

end TrackServer.Yaml
