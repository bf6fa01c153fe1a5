import TrackServer.Text.Ascii

/-!
# Text/Utf8 — bytes read and displayed as UTF-8 text

Bytes that have to be text are read by `text?`, which refuses all others.  File names may hold any
bytes.  They are displayed by `display`, which writes one replacement character for every maximal
piece of a broken sequence and goes on after it.

The reader of `display` is an automaton: `Pending` says which continuation bytes a begun sequence
still admits, `step` takes one byte.

* `scan_cons`: the text of a name is the concatenation of the steps' outputs.
-/

namespace TrackServer.Utf8

/-- The text that bytes are, if they are the encoding of one. -/
def text? (bytes : List UInt8) : Option String :=
  String.fromUTF8? bytes.toByteArray

/-- What stands for a broken sequence. -/
def replacement : Char :=
  Char.ofNat 0xFFFD

/-- Where the reader stands: at the start of a character, or inside a sequence that admits next a
byte from `low` to `high`, with `more` bytes after that one. -/
inductive Pending
  | start
  | inside (value more : Nat) (low high : UInt8)
  deriving DecidableEq, Repr

/-- The reader after the first byte of a sequence, with the character it completes or breaks. -/
def lead (b : UInt8) : List Char × Pending :=
  if b < 0x80 then ([Char.ofNat b.toNat], .start)
  else if b < 0xC2 then ([replacement], .start)
  else if b < 0xE0 then ([], .inside (b.toNat - 0xC0) 0 0x80 0xBF)
  else if b = 0xE0 then ([], .inside 0x00 1 0xA0 0xBF)
  else if b = 0xED then ([], .inside 0x0D 1 0x80 0x9F)
  else if b < 0xF0 then ([], .inside (b.toNat - 0xE0) 1 0x80 0xBF)
  else if b = 0xF0 then ([], .inside 0x00 2 0x90 0xBF)
  else if b < 0xF4 then ([], .inside (b.toNat - 0xF0) 2 0x80 0xBF)
  else if b = 0xF4 then ([], .inside 0x04 2 0x80 0x8F)
  else ([replacement], .start)

/-- Take one byte.  A byte that the begun sequence does not admit breaks it and is read again as a
first byte. -/
def step (pending : Pending) (b : UInt8) : List Char × Pending :=
  match pending with
  | .start => lead b
  | .inside value more low high =>
    if low ≤ b ∧ b ≤ high then
      let value := value * 64 + (b.toNat - 0x80)
      match more with
      | 0 => ([Char.ofNat value], .start)
      | more + 1 => ([], .inside value more 0x80 0xBF)
    else
      ((replacement :: (lead b).1), (lead b).2)

/-- The characters that bytes give from where the reader stands.  A sequence that the end cuts off
is broken. -/
def scan : Pending → List UInt8 → List Char
  | .start, [] => []
  | .inside .., [] => [replacement]
  | pending, b :: rest => (step pending b).1 ++ scan (step pending b).2 rest

/-- **The text that displays a name.** -/
def display (name : List UInt8) : String :=
  String.ofList (scan .start name)

theorem scan_cons (pending : Pending) (b : UInt8) (rest : List UInt8) :
    scan pending (b :: rest) = (step pending b).1 ++ scan (step pending b).2 rest := by
  cases pending <;> rfl

end TrackServer.Utf8
