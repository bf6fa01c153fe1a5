import TrackServer.Connection

/-!
# Proofs/Calls — a connection under calls in any order

A connection is used by `Call`s: input with the files as they stand, output, closing.  `run` makes
calls in order.  Each phase answers to one direction only, so a call in another phase changes
nothing (`handleInput_of_sending`, `handleOutput_of_receiving` and the like).
-/

namespace TrackServer

/-- One use of a connection.  The files are read as they stand at the call. -/
inductive Call
  | input (files : FileSystem)
  | output
  | close

namespace Connection

/-- The connection after a call. -/
def call (service : Service) (connection : Connection) : Call → Connection
  | .input files => (connection.handleInput { service with files }).2
  | .output => connection.handleOutput.2
  | .close => connection.close

/-- The connection after calls in order. -/
def run (service : Service) (connection : Connection) (calls : List Call) : Connection :=
  calls.foldl (call service) connection

theorem run_append (service : Service) (connection : Connection) (calls more : List Call) :
    connection.run service (calls ++ more) = (connection.run service calls).run service more :=
  List.foldl_append

variable {connection : Connection} {service : Service} {sender : Sender}

/-! ## Phase by phase -/

theorem handleInput_of_receiving (h : connection.phase = .receiving) :
    connection.handleInput service = connection.afterIntake service.chunkSize
      (service.intake connection.buffer connection.socket.inlet.log
        connection.socket.inlet.script) := by
  rw [handleInput, h]

theorem handleInput_of_sending (h : connection.phase = .sending sender) :
    connection.handleInput service = (.write, connection) := by
  rw [handleInput, h]

theorem handleInput_of_closing (h : connection.phase = .closing) :
    connection.handleInput service = (.close, connection) := by
  rw [handleInput, h]

theorem handleOutput_of_receiving (h : connection.phase = .receiving) :
    connection.handleOutput = (.read, connection) := by
  rw [handleOutput, h]

theorem handleOutput_of_sending (h : connection.phase = .sending sender) :
    connection.handleOutput = connection.afterDrain (sender.drain connection.socket.outlet) := by
  rw [handleOutput, h]

theorem handleOutput_of_closing (h : connection.phase = .closing) :
    connection.handleOutput = (.close, connection) := by
  rw [handleOutput, h]

@[simp] theorem socket_close : connection.close.socket = connection.socket := by
  unfold close
  split <;> rfl

@[simp] theorem phase_close : connection.close.phase = .closing := by
  unfold close
  split
  · assumption
  · rfl

end Connection

end TrackServer
