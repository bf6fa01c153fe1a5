import TrackServer.Request
import TrackServer.Text.Decimal

/-!
# Request/Parser — one request off the front of a buffer

A request is the first line of the buffer: a keyword and, for the two that ask about a track, its
number, parted by blanks.  A carriage return is a blank, so both line endings read alike.

The faults of a line are found in a fixed order: a byte that is not ASCII, no word at all, an
unknown keyword, a missing number, an unreadable number, a word too many.  `ParseError.reason` words
them for the client.

* `firstLine?_eq_some_iff`: the first line is what stands before the first terminator.
* `parse_append`: so a buffer that holds a line parses alike whatever follows.
-/

namespace TrackServer

/-- Why a buffer holds no request. -/
inductive ParseError
  /-- No line terminator yet. -/
  | incomplete
  | invalidEncoding
  | empty
  | unknownCommand (word : List UInt8)
  | missingTrack
  | invalidTrack (word : List UInt8)
  | trailingArguments
  deriving DecidableEq, Repr

namespace ParseError

/-- The wording of a fault, the offending word verbatim. -/
def reason : ParseError → List UInt8
  | .incomplete => Ascii.bytes "incomplete request"
  | .invalidEncoding => Ascii.bytes "request is not ASCII text"
  | .empty => Ascii.bytes "empty request"
  | .unknownCommand word => Ascii.bytes "unknown command " ++ word
  | .missingTrack => Ascii.bytes "missing track id"
  | .invalidTrack word => Ascii.bytes "invalid track id " ++ word
  | .trailingArguments => Ascii.bytes "too many arguments"

/-- The word a fault carries. -/
def word? : ParseError → Option (List UInt8)
  | .unknownCommand word => some word
  | .invalidTrack word => some word
  | _ => none

end ParseError

namespace Request

/-- Track numbers are machine words. -/
def trackBound : Nat := UInt64.size

/-- The track number among the words after a keyword. -/
def trackOf : List (List UInt8) → Except ParseError Nat
  | [] => .error .missingTrack
  | word :: rest =>
    match Decimal.read? trackBound word with
    | none => .error (.invalidTrack word)
    | some track => if rest = [] then .ok track else .error .trailingArguments

/-- The request of a command and the words after it. -/
def ofCommand (command : Command) (arguments : List (List UInt8)) : Except ParseError Request :=
  if command.takesTrack then
    (trackOf arguments).map fun track =>
      match command with
      | .info => .info track
      | _ => .play track
  else if arguments = [] then .ok .list
  else .error .trailingArguments

/-- The request of the words of a line. -/
def ofWords : List (List UInt8) → Except ParseError Request
  | [] => .error .empty
  | word :: arguments =>
    match Command.ofKeyword? word with
    | none => .error (.unknownCommand word)
    | some command => ofCommand command arguments

/-- The request on a line, its terminator left out. -/
def ofLine (line : List UInt8) : Except ParseError Request :=
  if line.all Ascii.isAscii then ofWords (Ascii.words line) else .error .invalidEncoding

/-- The bytes before the first line terminator. -/
def firstLine? (buffer : List UInt8) : Option (List UInt8) :=
  if Ascii.newline ∈ buffer then some (buffer.takeWhile (· != Ascii.newline)) else none

end Request

/-- A request and the number of bytes it took, terminator included. -/
structure Parsed where
  request : Request
  consumed : Nat
  deriving DecidableEq, Repr

/-- **Parse the request on the first line of a buffer.** -/
def Request.parse (buffer : List UInt8) : Except ParseError Parsed :=
  match firstLine? buffer with
  | none => .error .incomplete
  | some line => (ofLine line).map fun request => ⟨request, line.length + 1⟩

namespace Request

/-- A buffer with no line terminator has no first line. -/
theorem firstLine?_eq_none_iff {buffer : List UInt8} :
    firstLine? buffer = none ↔ Ascii.newline ∉ buffer := by
  simp [firstLine?]

/-- A line and its terminator in front of anything are read as that line. -/
theorem firstLine?_append_newline {line : List UInt8} (h : Ascii.newline ∉ line)
    (rest : List UInt8) : firstLine? (line ++ Ascii.newline :: rest) = some line := by
  have hall : ∀ b ∈ line, (b != Ascii.newline) = true := fun b hb => by
    simpa using fun he : b = Ascii.newline => h (he ▸ hb)
  simp [firstLine?, List.takeWhile_append_of_pos hall]

/-- **The first line of a buffer**: what stands before its first terminator. -/
theorem firstLine?_eq_some_iff {buffer line : List UInt8} :
    firstLine? buffer = some line ↔
      Ascii.newline ∉ line ∧ ∃ rest, buffer = line ++ Ascii.newline :: rest := by
  refine ⟨fun h => ?_, fun ⟨h, rest, hb⟩ => hb ▸ firstLine?_append_newline h rest⟩
  have hm : Ascii.newline ∈ buffer :=
    Classical.byContradiction fun hn => by simp [firstLine?_eq_none_iff.2 hn] at h
  obtain ⟨before, rest, rfl, hn⟩ := List.eq_append_cons_of_mem hm
  rw [firstLine?_append_newline hn, Option.some.injEq] at h
  exact ⟨h ▸ hn, rest, by rw [h]⟩

/-- Bytes after the first line do not change it. -/
theorem firstLine?_append {buffer line : List UInt8} (h : firstLine? buffer = some line)
    (more : List UInt8) : firstLine? (buffer ++ more) = some line := by
  obtain ⟨hn, rest, rfl⟩ := firstLine?_eq_some_iff.1 h
  exact firstLine?_eq_some_iff.2 ⟨hn, rest ++ more, by simp⟩

/-- A buffer is incomplete exactly when it holds no line terminator. -/
theorem parse_of_no_newline {buffer : List UInt8} (h : Ascii.newline ∉ buffer) :
    parse buffer = .error .incomplete := by
  rw [parse, firstLine?_eq_none_iff.2 h]

/-- **Streaming**: a buffer that holds a line parses alike whatever follows. -/
theorem parse_append {buffer : List UInt8} (h : Ascii.newline ∈ buffer) (more : List UInt8) :
    parse (buffer ++ more) = parse buffer := by
  cases hl : firstLine? buffer with
  | none => exact absurd h (firstLine?_eq_none_iff.1 hl)
  | some line => rw [parse, parse, firstLine?_append hl, hl]

end Request

end TrackServer
