import TrackServer.Bytes
import TrackServer.Fault

/-!
# Socket — a non-blocking stream as a value

What a socket will do is a script: the result of each read and of each write to come.  What it did
is a log, newest first.  So a run is a function, and every behaviour of a peer and its network is
some pair of scripts.

The two directions never touch each other and are two values.  The `Inlet` hands over pieces of 1 to
`readLimit` bytes; at the end of its script a read would block.  The `Outlet` keeps what it stored;
at the end of its script it takes all it is offered.

* `Outlet.settle`: write attempts of one chunk until one is not interrupted.
* `ofBytes_bytes`: bytes cut into pieces are the same bytes.
-/

namespace TrackServer

/-! ## Reading -/

/-- The most bytes that one read hands over. -/
def readLimit : Nat := 1024

/-- The bytes of one read: some, and no more than the limit. -/
structure Piece where
  bytes : List UInt8
  nonempty : bytes ≠ []
  fits : bytes.length ≤ readLimit
  deriving DecidableEq

/-- The result of one read. -/
inductive ReadResult
  | data (piece : Piece)
  | ended
  | wouldBlock
  | interrupted
  | failed (fault : Fault)
  deriving DecidableEq

/-- The receiving direction: results to come, and results so far, newest first. -/
structure Inlet where
  script : List ReadResult
  log : List ReadResult
  deriving DecidableEq

namespace Piece

/-- The first piece of bytes that are there. -/
def first (b : UInt8) (rest : List UInt8) : Piece :=
  ⟨(b :: rest).take readLimit, List.cons_ne_nil b (rest.take (readLimit - 1)),
    List.length_take_le readLimit (b :: rest)⟩

/-- Bytes cut into pieces, each as long as a read allows. -/
def ofBytes (bytes : List UInt8) : List Piece :=
  match bytes with
  | [] => []
  | b :: rest => first b rest :: ofBytes ((b :: rest).drop readLimit)
termination_by bytes.length
decreasing_by
  rw [List.length_drop]
  exact Nat.sub_lt (Nat.succ_pos _) (Nat.succ_pos _)

/-- Cutting into pieces loses nothing. -/
theorem ofBytes_bytes (bytes : List UInt8) : (ofBytes bytes).flatMap Piece.bytes = bytes := by
  fun_induction ofBytes bytes with
  | case1 => rfl
  | case2 b rest ih => rw [List.flatMap_cons, ih, first, List.take_append_drop]

end Piece

namespace Inlet

/-- A direction with a script and nothing read. -/
def ofScript (script : List ReadResult) : Inlet :=
  ⟨script, []⟩

/-- The results that hand over bytes; no bytes at all are the end of the stream. -/
def deliver (bytes : List UInt8) : List ReadResult :=
  if bytes = [] then [.ended] else (Piece.ofBytes bytes).map .data

/-- The bytes that a log says were handed over, in order. -/
def received : List ReadResult → List UInt8
  | [] => []
  | .data piece :: earlier => received earlier ++ piece.bytes
  | _ :: earlier => received earlier

/-- More results to come. -/
def extend (inlet : Inlet) (script : List ReadResult) : Inlet :=
  { inlet with script := inlet.script ++ script }

end Inlet

/-! ## Writing -/

/-- What the socket does with the next offer.  `accept` keeps a leading part and says so; `claim`
keeps all of it and says what it likes. -/
inductive WriteStep
  | accept (limit : Nat)
  | claim (count : Nat)
  | wouldBlock
  | interrupted
  | failed (fault : Fault)
  deriving DecidableEq

/-- The result of one write. -/
inductive WriteResult
  | wrote (count : Nat)
  | wouldBlock
  | interrupted
  | failed (fault : Fault)
  deriving DecidableEq

/-- One write: what was offered and what came of it. -/
structure WriteAttempt where
  offered : ByteArray
  result : WriteResult
  deriving DecidableEq

/-- The sending direction: steps to come, bytes stored, and attempts so far, newest first. -/
structure Outlet where
  script : List WriteStep
  stored : ByteArray
  log : List WriteAttempt
  deriving DecidableEq

/-- How the attempts at one chunk end. -/
inductive Settlement
  | wrote (count : Nat)
  | wouldBlock
  | failed (fault : Fault)
  deriving DecidableEq

namespace WriteStep

/-- What the socket answers to an offer. -/
def result (offered : ByteArray) : WriteStep → WriteResult
  | .accept limit => .wrote (min limit offered.size)
  | .claim count => .wrote count
  | .wouldBlock => .wouldBlock
  | .interrupted => .interrupted
  | .failed fault => .failed fault

/-- What the socket keeps of an offer. -/
def kept (offered : ByteArray) : WriteStep → ByteArray
  | .accept limit => offered.extract 0 (min limit offered.size)
  | .claim _ => offered
  | _ => ByteArray.empty

/-- The socket keeps exactly as many leading bytes as it says. -/
def isHonest : WriteStep → Bool
  | .claim _ => false
  | _ => true

end WriteStep

namespace Outlet

/-- A direction with a script and nothing written. -/
def ofScript (script : List WriteStep) : Outlet :=
  ⟨script, ByteArray.empty, []⟩

/-- More steps to come. -/
def extend (outlet : Outlet) (script : List WriteStep) : Outlet :=
  { outlet with script := outlet.script ++ script }

/-- **Write attempts of one chunk until one is not interrupted**, over the steps to come and on top
of what was stored and logged. -/
def settle (chunk stored : ByteArray) (log : List WriteAttempt) :
    List WriteStep → Settlement × Outlet
  | [] => (.wrote chunk.size, ⟨[], stored ++ chunk, ⟨chunk, .wrote chunk.size⟩ :: log⟩)
  | step :: rest =>
    let log := ⟨chunk, step.result chunk⟩ :: log
    let stored := stored ++ step.kept chunk
    match step.result chunk with
    | .interrupted => settle chunk stored log rest
    | .wrote count => (.wrote count, ⟨rest, stored, log⟩)
    | .wouldBlock => (.wouldBlock, ⟨rest, stored, log⟩)
    | .failed fault => (.failed fault, ⟨rest, stored, log⟩)

/-- Offer a chunk. -/
def write (outlet : Outlet) (chunk : ByteArray) : Settlement × Outlet :=
  settle chunk outlet.stored outlet.log outlet.script

end Outlet

/-! ## Both -/

/-- A socket: its two directions. -/
structure Socket where
  inlet : Inlet
  outlet : Outlet
  deriving DecidableEq

/-- A socket that follows two scripts. -/
def Socket.ofScripts (reads : List ReadResult) (writes : List WriteStep) : Socket :=
  ⟨.ofScript reads, .ofScript writes⟩

end TrackServer
