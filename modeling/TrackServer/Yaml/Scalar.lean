import TrackServer.Yaml.Cursor

/-!
# Yaml/Scalar — the texts in a YAML document

A scalar is written plain, between quotes, or as a block below a header.  Each reader here takes the
cursor at the start of a scalar and gives its text and the cursor behind it.

Plain and quoted scalars may go over several lines, whose ends are folded.  A block scalar keeps its
line ends (`|`) or folds them (`>`); its header may give the indentation and say what becomes of the
line ends at its end.
-/

namespace TrackServer.Yaml

/-- How a scalar is written. -/
inductive Style
  | plain
  | quoted
  | literal
  | folded
  deriving DecidableEq, Repr

/-! ## Plain scalars -/

/-- The characters that part the entries of a flow collection or close it. -/
def isFlowIndicator (c : Char) : Bool :=
  c == ',' || c == '[' || c == ']' || c == '\x7b' || c == '\x7d'

/-- The words of a scalar so far, back to front, and the gap after them. -/
structure Words where
  reversed : List Char
  gap : Gap

namespace Words

/-- No word yet. -/
def none : Words :=
  ⟨[], Gap.none⟩

/-- One more character, behind the gap. -/
def push (words : Words) (c : Char) : Words :=
  ⟨c :: (words.gap.fold.reverse ++ words.reversed), Gap.none⟩

/-- The text of the words, the gap left out. -/
def text (words : Words) : List Char :=
  words.reversed.reverse

end Words

/-- Whether a plain scalar ends at a character with another one behind it. -/
def endsPlain (inFlow : Bool) (c : Char) (next : Option Char) : Bool :=
  (c == ':' && endsWord next) || (inFlow && isFlowIndicator c)

/-- Whether a colon stands inside a flow collection where neither a word nor a value goes on. -/
def isStrayColon (inFlow : Bool) (c : Char) (next : Option Char) : Bool :=
  inFlow && c == ':' && next.any fun d => isFlowIndicator d || d == '?'

/-- The words of a plain scalar up to where it ends.  `margin` is the least column of its further
lines; `rounds` bounds the number of characters. -/
def plainLoop (inFlow : Bool) (margin : Nat) :
    Nat → Words → Cursor → Except Fault (Words × Cursor)
  | 0, words, cursor => .ok (words, cursor)
  | rounds + 1, words, cursor =>
    match cursor.peek 0 with
    | none => .ok (words, cursor)
    | some c =>
      if isBlank c || isBreak c then do
        let (gap, next) ← cursor.takeGap margin (rounds + 1) Gap.none
        if !inFlow && next.column < margin || next.atDocumentMarker || next.at? '#' then
          .ok (⟨words.reversed, gap⟩, next)
        else plainLoop inFlow margin rounds ⟨words.reversed, gap⟩ next
      else if isStrayColon inFlow c (cursor.peek 1) then .error .strayCharacter
      else if endsPlain inFlow c (cursor.peek 1) then .ok (words, cursor)
      else plainLoop inFlow margin rounds (words.push c) (cursor.skip 1)

/-- A plain scalar: its text, whether a line end follows it, and the cursor behind it. -/
def takePlain (inFlow : Bool) (margin : Nat) (cursor : Cursor) :
    Except Fault (List Char × Bool × Cursor) := do
  let (words, cursor) ← plainLoop inFlow margin cursor.bound Words.none cursor
  return (words.text, words.gap.broken, cursor)

/-! ## Quoted scalars -/

/-- The value of a hexadecimal digit. -/
def hexValue? (c : Char) : Option Nat :=
  if c.isDigit then some (c.toNat - '0'.toNat)
  else if 'a' ≤ c ∧ c ≤ 'f' then some (c.toNat - 'a'.toNat + 10)
  else if 'A' ≤ c ∧ c ≤ 'F' then some (c.toNat - 'A'.toNat + 10)
  else none

/-- The number that hexadecimal digits write. -/
def hexNumber? (digits : List Char) : Option Nat :=
  digits.foldl (fun value c => value.bind fun v => (hexValue? c).map (v * 16 + ·)) (some 0)

/-- The character of an escape by one letter. -/
def escapeLetter? (c : Char) : Option Char :=
  [('0', 0x00), ('a', 0x07), ('b', 0x08), ('t', 0x09), ('\t', 0x09), ('n', 0x0A), ('v', 0x0B),
    ('f', 0x0C), ('r', 0x0D), ('e', 0x1B), (' ', 0x20), ('"', 0x22), ('/', 0x2F), ('\\', 0x5C),
    ('N', 0x85), ('_', 0xA0), ('L', 0x2028), ('P', 0x2029)].lookup c |>.map Char.ofNat

/-- How many hexadecimal digits follow the letter of an escape. -/
def escapeDigits? (c : Char) : Option Nat :=
  [('x', 2), ('u', 4), ('U', 8)].lookup c

/-- The character of the escape at a backslash, and the cursor behind it. -/
def takeEscape (cursor : Cursor) : Except Fault (Char × Cursor) :=
  match cursor.peek 1 with
  | none => .error .invalidEscape
  | some letter =>
    match escapeLetter? letter, escapeDigits? letter with
    | some c, _ => .ok (c, cursor.skip 2)
    | none, none => .error .invalidEscape
    | none, some count =>
      let digits := (cursor.skip 2).rest.take count
      match hexNumber? digits with
      | none => .error .invalidEscape
      | some value =>
        if digits.length = count ∧ value.isValidChar then
          .ok (Char.ofNat value, cursor.skip (2 + count))
        else .error .invalidEscape

/-- The words of a quoted scalar up to its closing quote, back to front. -/
def quotedLoop (quote : Char) : Nat → List Char → Cursor → Except Fault (List Char × Cursor)
  | 0, _, _ => .error .unterminated
  | rounds + 1, reversed, cursor =>
    match cursor.peek 0 with
    | none => .error .unterminated
    | some c =>
      if cursor.atDocumentMarker then .error .disorder
      else if isBlank c || isBreak c then do
        let (gap, cursor) ← cursor.takeGap 0 (rounds + 1) Gap.none
        quotedLoop quote rounds (gap.fold.reverse ++ reversed) cursor
      else if quote == '\'' && c == quote && cursor.peek 1 == some quote then
        quotedLoop quote rounds (quote :: reversed) (cursor.skip 2)
      else if c == quote then .ok (reversed, cursor.skip 1)
      else if quote == '"' && c == '\\' then
        if (cursor.peek 1).any isBreak then do
          let (gap, cursor) ← (cursor.skip 1).takeBreak.2.takeGap 0 (rounds + 1) Gap.escaped
          quotedLoop quote rounds (gap.fold.reverse ++ reversed) cursor
        else do
          let (escaped, cursor) ← takeEscape cursor
          quotedLoop quote rounds (escaped :: reversed) cursor
      else quotedLoop quote rounds (c :: reversed) (cursor.skip 1)

/-- A quoted scalar: its text and the cursor behind the closing quote. -/
def takeQuoted (quote : Char) (cursor : Cursor) : Except Fault (List Char × Cursor) := do
  let (reversed, cursor) ← quotedLoop quote cursor.bound [] (cursor.skip 1)
  return (reversed.reverse, cursor)

/-! ## Block scalars -/

/-- What becomes of the line ends at the end of a block scalar. -/
inductive Chomp
  | strip
  | clip
  | keep
  deriving DecidableEq, Repr

/-- The sign in a header. -/
def chomp? : Option Char → Option Chomp
  | some '+' => some .keep
  | some '-' => some .strip
  | _ => none

/-- The digit in a header. -/
def increment? (c : Option Char) : Option Nat :=
  (c.filter Char.isDigit).map fun c => c.toNat - '0'.toNat

/-- A header behind its indicator: the sign and the digit, in either order. -/
def takeHeader (cursor : Cursor) : Except Fault (Chomp × Option Nat × Cursor) :=
  let (chomp, increment, length) :=
    match chomp? (cursor.peek 0), increment? (cursor.peek 0) with
    | some chomp, _ =>
      match increment? (cursor.peek 1) with
      | some n => (chomp, some n, 2)
      | none => (chomp, none, 1)
    | none, some n =>
      match chomp? (cursor.peek 1) with
      | some chomp => (chomp, some n, 2)
      | none => (Chomp.clip, some n, 1)
    | none, none => (Chomp.clip, none, 0)
  match increment, (cursor.skip length).finishLine with
  | some 0, _ => .error .invalidHeader
  | _, none => .error .invalidHeader
  | increment, some cursor => .ok (chomp, increment, cursor)

/-- Indentation and empty lines.  While the indentation `indent` is not known, `deepest` is the
greatest one so far. -/
def blockBreaks (indent : Option Nat) :
    Nat → Nat → List Char → Cursor → Except Fault (Nat × List Char × Cursor)
  | 0, deepest, breaks, cursor => .ok (deepest, breaks, cursor)
  | rounds + 1, deepest, breaks, cursor =>
    let within (cursor : Cursor) : Bool := indent.all fun n => cursor.column < n
    let spaces := (cursor.takeWhile (· == ' ')).1.length
    let cursor := cursor.skip (indent.elim spaces fun n => min spaces (n - cursor.column))
    let deepest := max deepest cursor.column
    if within cursor && cursor.at? '\t' then .error .tabIndentation
    else if (cursor.peek 0).any isBreak then
      let (text, cursor) := cursor.takeBreak
      blockBreaks indent rounds deepest (breaks ++ text) cursor
    else .ok (deepest, breaks, cursor)

/-- The lines of a block scalar: the text so far, back to front, the last line end, the empty lines
after it, and whether the last line started with a blank. -/
structure BlockLines where
  reversed : List Char
  lastBreak : List Char
  breaks : List Char
  blankStart : Bool

namespace BlockLines

/-- What stands between the lines so far and a next one.  Only between lines that start with no
blank is a newline folded. -/
def joint (lines : BlockLines) (folds blankStart : Bool) : List Char :=
  if folds && lines.lastBreak.head? == some '\n' && !lines.blankStart && !blankStart then
    (if lines.breaks = [] then [' '] else []) ++ lines.breaks
  else lines.lastBreak ++ lines.breaks

/-- The text of all lines. -/
def text (lines : BlockLines) (chomp : Chomp) : List Char :=
  lines.reversed.reverse ++
    match chomp with
    | .strip => []
    | .clip => lines.lastBreak
    | .keep => lines.lastBreak ++ lines.breaks

end BlockLines

/-- The lines of a block scalar from the cursor on, as long as they start at its indentation. -/
def blockLoop (folds : Bool) (indent : Nat) :
    Nat → BlockLines → Cursor → Except Fault (BlockLines × Cursor)
  | 0, lines, cursor => .ok (lines, cursor)
  | rounds + 1, lines, cursor =>
    if cursor.column ≠ indent ∨ cursor.rest = [] then .ok (lines, cursor)
    else do
      let blankStart := (cursor.peek 0).any isBlank
      let (line, behind) := cursor.takeWhile fun _ => true
      let (lastBreak, next) := behind.takeBreak
      let (_, breaks, next) ← blockBreaks (some indent) (rounds + 1) 0 [] next
      let reversed := line.reverse ++ ((lines.joint folds blankStart).reverse ++ lines.reversed)
      blockLoop folds indent rounds ⟨reversed, lastBreak, breaks, blankStart⟩ next

/-- A block scalar inside a mapping at the column `parent`, if it is inside one: its text and the
cursor behind it. -/
def takeBlock (folds : Bool) (parent : Option Nat) (cursor : Cursor) :
    Except Fault (List Char × Cursor) := do
  let (chomp, increment, start) ← takeHeader (cursor.skip 1)
  let rounds := start.bound
  let given := increment.map (parent.getD 0 + ·)
  let (deepest, breaks, start) ← blockBreaks given rounds 0 [] start
  let indent := given.getD (max deepest (max (parent.elim 0 (· + 1)) 1))
  let (lines, cursor) ← blockLoop folds indent rounds ⟨[], [], breaks, false⟩ start
  return (lines.text chomp, cursor)

end TrackServer.Yaml
