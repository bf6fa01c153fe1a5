import TrackServer.Request.Parser
import TrackServer.Response.Resolve
import TrackServer.Sender

/-!
# Connection — the life of one client

A connection is `receiving` until its buffer answers a request or refuses one, then `sending` that
one response, then `closing`.  Bytes after the first line are never looked at.

`handleInput` and `handleOutput` are its answers to readiness; each runs until the socket would
block or the phase ends, and says what the connection needs next.  The read loop is `intake`, by
recursion on what the socket will do; the write loop is `drain`, which ends because each chunk sent
leaves fewer bytes.
-/

namespace TrackServer

/-- What every connection of a server shares: the catalog, the files its tracks are read from, and
the bounds on chunks and requests. -/
structure Service where
  catalog : Catalog
  files : FileSystem
  chunkSize : Nat
  maxRequest : Nat

/-- Where a connection is in its life. -/
inductive Phase
  | receiving
  | sending (sender : Sender)
  | closing
  deriving DecidableEq

/-- What a connection needs next. -/
inductive Next
  | read
  | write
  | close
  deriving DecidableEq, Repr

/-- One client: its socket, the bytes received and not consumed, and the phase. -/
structure Connection where
  socket : Socket
  buffer : List UInt8
  phase : Phase
  deriving DecidableEq

namespace Service

/-- The reason for refusing a request that is too long. -/
def tooLarge : List UInt8 :=
  Ascii.bytes "request too large"

variable (service : Service)

/-- **What a buffer answers**, and the bytes left of it; nothing while a request is still incomplete
and may grow. -/
def answer? (buffer : List UInt8) : Option (Response × List UInt8) :=
  match Request.parse buffer with
  | .ok parsed =>
    some (service.catalog.respond service.files parsed.request, buffer.drop parsed.consumed)
  | .error .incomplete =>
    if buffer.length ≤ service.maxRequest then none else some (.refuse tooLarge, buffer)
  | .error fault => some (.refuse fault.reason, buffer)

end Service

/-- How reading ends: for now, with a response, or for good. -/
inductive Intake
  | blocked
  | answered (response : Response)
  | ended
  deriving DecidableEq

/-- **Read until the socket would block or ends, or the buffer answers**, over the results to come
and on top of the buffer and the log. -/
def Service.intake (service : Service) (buffer : List UInt8) (log : List ReadResult) :
    List ReadResult → Intake × List UInt8 × Inlet
  | [] => (.blocked, buffer, ⟨[], .wouldBlock :: log⟩)
  | result :: rest =>
    match result with
    | .wouldBlock => (.blocked, buffer, ⟨rest, result :: log⟩)
    | .interrupted => service.intake buffer (result :: log) rest
    | .ended => (.ended, buffer, ⟨rest, result :: log⟩)
    | .failed _ => (.ended, buffer, ⟨rest, result :: log⟩)
    | .data piece =>
      match service.answer? (buffer ++ piece.bytes) with
      | none => service.intake (buffer ++ piece.bytes) (result :: log) rest
      | some (response, left) => (.answered response, left, ⟨rest, result :: log⟩)

/-- How writing ends: for now, or with the payload out, or with a fault. -/
inductive Drained
  | blocked
  | delivered
  | failed (fault : Fault)
  deriving DecidableEq

/-- **Send until the socket would block or fails, or nothing is left.** -/
def Sender.drain (sender : Sender) (outlet : Outlet) : Drained × Sender × Outlet :=
  match _h : sender.send outlet with
  | (.sent _, sender, outlet) => sender.drain outlet
  | (.wouldBlock, sender, outlet) => (.blocked, sender, outlet)
  | (.done, sender, outlet) => (.delivered, sender, outlet)
  | (.fault fault, sender, outlet) => (.failed fault, sender, outlet)
termination_by sender.remaining
decreasing_by exact Sender.remaining_send_lt _h

namespace Connection

/-- A fresh connection over a socket. -/
def ofSocket (socket : Socket) : Connection :=
  ⟨socket, [], .receiving⟩

variable (connection : Connection)

/-- Whether requests are still read. -/
def isReceiving : Bool :=
  match connection.phase with
  | .receiving => true
  | _ => false

/-- Whether a response is on its way. -/
def isSending : Bool :=
  match connection.phase with
  | .sending _ => true
  | _ => false

/-- Whether the connection is finished. -/
def isClosing : Bool :=
  match connection.phase with
  | .closing => true
  | _ => false

/-- The response on its way. -/
def sender? : Option Sender :=
  match connection.phase with
  | .sending sender => some sender
  | _ => none

/-- **Finish the connection.**  What was not sent and what was not consumed is dropped. -/
def close : Connection :=
  match connection.phase with
  | .closing => connection
  | _ => { connection with buffer := [], phase := .closing }

/-- The connection after reading. -/
def afterIntake (chunkSize : Nat) : Intake × List UInt8 × Inlet → Next × Connection
  | (.blocked, buffer, inlet) =>
    (.read, { connection with socket := { connection.socket with inlet }, buffer })
  | (.answered response, buffer, inlet) =>
    (.write,
      { socket := { connection.socket with inlet }
        buffer
        phase := .sending (.ofPayload response.payload chunkSize) })
  | (.ended, buffer, inlet) =>
    (.close, close { connection with socket := { connection.socket with inlet }, buffer })

/-- **Answer to input readiness.**  Only a receiving connection reads. -/
def handleInput (service : Service) : Next × Connection :=
  match connection.phase with
  | .receiving =>
    connection.afterIntake service.chunkSize
      (service.intake connection.buffer connection.socket.inlet.log connection.socket.inlet.script)
  | .sending _ => (.write, connection)
  | .closing => (.close, connection)

/-- The connection after writing. -/
def afterDrain : Drained × Sender × Outlet → Next × Connection
  | (result, sender, outlet) =>
    let written : Connection :=
      { connection with socket := { connection.socket with outlet }, phase := .sending sender }
    match result with
    | .blocked => (.write, written)
    | .delivered => (.close, written.close)
    | .failed _ => (.close, written.close)

/-- **Answer to output readiness.**  Only a sending connection writes. -/
def handleOutput : Next × Connection :=
  match connection.phase with
  | .receiving => (.read, connection)
  | .sending sender => connection.afterDrain (sender.drain connection.socket.outlet)
  | .closing => (.close, connection)

/-- More results to come on the socket. -/
def extendScripts (reads : List ReadResult) (writes : List WriteStep) : Connection :=
  { connection with
    socket := ⟨connection.socket.inlet.extend reads, connection.socket.outlet.extend writes⟩ }

end Connection

end TrackServer
