import TrackServer.Socket

/-!
# Sender — a payload on its way out

A sender holds a payload and a cursor.  Each `send` offers the outlet the next chunk, of at most
`chunkSize` bytes (a chunk size of 0 acts as 1), and moves the cursor by what the outlet said it
took, but never past the chunk: a socket that claims more is not believed.

* `remaining_send_lt`: whenever bytes were sent, fewer remain; so draining a sender ends.
-/

namespace TrackServer

/-- A payload and how much of it was sent. -/
structure Sender where
  payload : ByteArray
  chunkSize : Nat
  position : Nat
  deriving DecidableEq

/-- What came of one chunk. -/
inductive SendOutcome
  /-- So many bytes were taken, at least one. -/
  | sent (count : Nat)
  /-- Nothing was taken; the socket has to become writable. -/
  | wouldBlock
  /-- Nothing is left to send. -/
  | done
  /-- The socket failed; the cursor stands where it stood. -/
  | fault (fault : Fault)
  deriving DecidableEq

namespace Sender

/-- A sender at the start of its payload.  Room for a chunk is taken to be there: that a chunk size
may be too large for any memory is left out. -/
def ofPayload (payload : ByteArray) (chunkSize : Nat) : Sender :=
  ⟨payload, chunkSize, 0⟩

/-- The fault of a socket that takes nothing. -/
def nothingTaken : Fault :=
  ⟨.writeZero, "socket accepted no bytes"⟩

variable (sender : Sender)

/-- The length of the payload. -/
def size : Nat :=
  sender.payload.size

/-- Whether the payload is empty. -/
def isEmpty : Bool :=
  sender.size == 0

/-- How many bytes are left. -/
def remaining : Nat :=
  sender.size - sender.position

/-- Whether nothing is left. -/
def isDone : Bool :=
  sender.remaining == 0

/-- The length of the next chunk. -/
def chunkLength : Nat :=
  min sender.remaining (max sender.chunkSize 1)

/-- The next chunk. -/
def chunk : ByteArray :=
  sender.payload.extract sender.position (sender.position + sender.chunkLength)

/-- The sender with its cursor moved on. -/
def advance (count : Nat) : Sender :=
  { sender with position := sender.position + count }

/-- **Send the next chunk**, if there is one. -/
def send (outlet : Outlet) : SendOutcome × Sender × Outlet :=
  if sender.remaining = 0 then (.done, sender, outlet)
  else
    match outlet.write sender.chunk with
    | (.wrote 0, outlet) => (.fault nothingTaken, sender, outlet)
    | (.wrote (count + 1), outlet) =>
      let count := min (count + 1) sender.chunkLength
      (.sent count, sender.advance count, outlet)
    | (.wouldBlock, outlet) => (.wouldBlock, sender, outlet)
    | (.failed fault, outlet) => (.fault fault, sender, outlet)

variable {sender}

/-- Some bytes make a chunk. -/
theorem chunkLength_pos (h : sender.remaining ≠ 0) : 0 < sender.chunkLength := by
  unfold chunkLength; omega

/-- **Whenever bytes were sent, fewer remain.** -/
theorem remaining_send_lt {outlet outlet' : Outlet} {sender' : Sender} {count : Nat}
    (h : sender.send outlet = (.sent count, sender', outlet')) :
    sender'.remaining < sender.remaining := by
  unfold send at h
  split at h
  · simp at h
  · next hr =>
    have hc := chunkLength_pos hr
    split at h <;> simp only [Prod.mk.injEq, reduceCtorEq, false_and] at h
    obtain ⟨-, rfl, -⟩ := h
    simp only [remaining, size, advance] at hr ⊢
    omega

end Sender

end TrackServer
