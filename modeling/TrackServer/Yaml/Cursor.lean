/-!
# Yaml/Cursor — a place in a YAML text

A cursor is the rest of the text with the place where it starts: how many characters stand before
it, on which line and in which column.  Line ends are the five of YAML 1.1; a carriage return and a
newline together are one, and the newline is the text of the first three kinds.

`Gap` is what stands between two words of a scalar that goes over several lines, and `Gap.fold` what
it is read as.
-/

namespace TrackServer.Yaml

/-- Why a text is refused. -/
inductive Fault
  /-- A control character in the text. -/
  | controlCharacter
  /-- A character that starts no token here. -/
  | strayCharacter
  /-- A tab where the indentation is counted. -/
  | tabIndentation
  /-- A quoted scalar, a flow mapping or a verbatim tag without its end. -/
  | unterminated
  /-- An escape that is not known or gives no character. -/
  | invalidEscape
  /-- A header of a block scalar with something else on its line. -/
  | invalidHeader
  | invalidDirective
  | invalidAnchor
  | invalidTag
  /-- A key where none may stand, or one without its colon. -/
  | misplacedKey
  /-- A colon where no value may stand. -/
  | misplacedValue
  /-- A sequence or a mapping inside the document's mapping. -/
  | nested
  /-- Tokens in an order that makes no document. -/
  | disorder
  /-- A document that is neither empty nor a mapping. -/
  | notMapping
  /-- More than one document. -/
  | severalDocuments
  | unknownAlias
  deriving DecidableEq, Repr

/-! ## Characters -/

/-- The characters that may stand in a text at all. -/
def isPrintable (c : Char) : Bool :=
  let n := c.toNat
  n == 0x09 || n == 0x0A || n == 0x0D || (0x20 ≤ n && n ≤ 0x7E) || n == 0x85 ||
    (0xA0 ≤ n && n ≤ 0xD7FF) || (0xE000 ≤ n && n ≤ 0xFFFD) || 0x10000 ≤ n

/-- The line separator. -/
def lineSeparator : Char := Char.ofNat 0x2028

/-- The paragraph separator. -/
def paragraphSeparator : Char := Char.ofNat 0x2029

/-- The next-line character. -/
def nextLine : Char := Char.ofNat 0x85

/-- The byte order mark. -/
def orderMark : Char := Char.ofNat 0xFEFF

/-- The characters that end a line. -/
def isBreak (c : Char) : Bool :=
  c == '\n' || c == '\r' || c == nextLine || c == lineSeparator || c == paragraphSeparator

/-- The characters that part words on a line. -/
def isBlank (c : Char) : Bool :=
  c == ' ' || c == '\t'

/-- The characters of names: of anchors, of directives, of tag handles. -/
def isWordCharacter (c : Char) : Bool :=
  c.isAlphanum || c == '_' || c == '-'

/-- Whether a word ends here: at a blank, a line end or the end of the text. -/
def endsWord : Option Char → Bool
  | none => true
  | some c => isBlank c || isBreak c

/-- Whether a line ends here. -/
def endsLine : Option Char → Bool
  | none => true
  | some c => isBreak c

/-! ## Cursors -/

/-- The rest of a text and where it starts. -/
structure Cursor where
  rest : List Char
  index : Nat
  line : Nat
  column : Nat
  /-- One more than the length of the whole text, which bounds every walk over it. -/
  bound : Nat

namespace Cursor

/-- The start of a text. -/
def ofText (text : List Char) : Cursor :=
  ⟨text, 0, 0, 0, text.length + 1⟩

variable (cursor : Cursor)

/-- The character that many places on. -/
def peek (ahead : Nat) : Option Char :=
  cursor.rest[ahead]?

/-- Whether a character stands here. -/
def at? (c : Char) : Bool :=
  cursor.rest.head? == some c

/-- That many characters further on the same line. -/
def skip (count : Nat) : Cursor :=
  { cursor with
    rest := cursor.rest.drop count
    index := cursor.index + count
    column := cursor.column + count }

/-- The characters from here that a line holds and that satisfy a condition, and the cursor behind
them. -/
def takeWhile (condition : Char → Bool) : List Char × Cursor :=
  let taken := cursor.rest.takeWhile fun c => condition c && !isBreak c
  (taken, cursor.skip taken.length)

/-- The cursor behind the characters that satisfy a condition. -/
def skipWhile (condition : Char → Bool) : Cursor :=
  (cursor.takeWhile condition).2

/-- A line end here as it is read, nothing if there is none, and the cursor behind it. -/
def takeBreak : List Char × Cursor :=
  let next (rest : List Char) (count : Nat) : Cursor :=
    { cursor with rest, index := cursor.index + count, line := cursor.line + 1, column := 0 }
  match cursor.rest with
  | '\r' :: '\n' :: rest => (['\n'], next rest 2)
  | c :: rest =>
    if c == lineSeparator || c == paragraphSeparator then ([c], next rest 1)
    else if isBreak c then (['\n'], next rest 1)
    else ([], cursor)
  | [] => ([], cursor)

/-- The cursor behind a comment, if one stands here. -/
def skipComment : Cursor :=
  if cursor.at? '#' then cursor.skipWhile fun _ => true else cursor

/-- Whether three characters of one kind stand alone at the start of a line. -/
def atMarker (c : Char) : Bool :=
  cursor.column == 0 && cursor.rest.take 3 == [c, c, c] && endsWord (cursor.peek 3)

/-- Whether a document starts or ends here. -/
def atDocumentMarker : Bool :=
  cursor.atMarker '-' || cursor.atMarker '.'

/-- The cursor on the next line, if nothing but blanks and a comment is left of this one. -/
def finishLine : Option Cursor :=
  let cursor := (cursor.skipWhile isBlank).skipComment
  if endsLine (cursor.peek 0) then some cursor.takeBreak.2 else none

end Cursor

/-! ## Gaps -/

/-- What stands between two words: blanks, or line ends with blanks around them. -/
structure Gap where
  blanks : List Char
  /-- The first line end, as it is read. -/
  first : List Char
  /-- The further line ends. -/
  more : List Char
  /-- Whether a line end was crossed. -/
  broken : Bool

namespace Gap

/-- Nothing between two words. -/
def none : Gap :=
  ⟨[], [], [], false⟩

/-- A line end that is escaped, so that nothing stands for it. -/
def escaped : Gap :=
  ⟨[], [], [], true⟩

/-- Line ends as they are folded: a single newline is a space, of several the first is dropped. -/
def foldBreaks (first more : List Char) : List Char :=
  if first.head? = some '\n' then if more = [] then [' '] else more else first ++ more

/-- What a gap is read as. -/
def fold (gap : Gap) : List Char :=
  if gap.broken then foldBreaks gap.first gap.more else gap.blanks

end Gap

/-- Take blanks and line ends, on top of a gap.  Within the indentation, that is before the column
`margin` of a further line, tabs are refused.  `rounds` bounds the number of characters. -/
def Cursor.takeGap (margin : Nat) : Nat → Gap → Cursor → Except Fault (Gap × Cursor)
  | 0, gap, cursor => .ok (gap, cursor)
  | rounds + 1, gap, cursor =>
    match cursor.peek 0 with
    | none => .ok (gap, cursor)
    | some c =>
      if isBlank c then
        if gap.broken then
          if c == '\t' && cursor.column < margin then .error .tabIndentation
          else takeGap margin rounds gap (cursor.skip 1)
        else takeGap margin rounds { gap with blanks := gap.blanks ++ [c] } (cursor.skip 1)
      else if isBreak c then
        let (text, cursor) := cursor.takeBreak
        if gap.broken then takeGap margin rounds { gap with more := gap.more ++ text } cursor
        else takeGap margin rounds ⟨[], text, gap.more, true⟩ cursor
      else .ok (gap, cursor)

end TrackServer.Yaml
