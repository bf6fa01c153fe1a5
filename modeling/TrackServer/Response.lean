import TrackServer.Bytes
import TrackServer.Text.Ascii

/-!
# Response — what a client is sent

A response is a payload, sent verbatim and ended by closing the connection, and a status that the
server keeps to itself.  A refusal is one line that gives the reason.
-/

namespace TrackServer

/-- Whether a request was served or refused. -/
inductive Status
  | ok
  | error
  deriving DecidableEq, Repr

/-- A complete answer. -/
structure Response where
  status : Status
  payload : ByteArray
  deriving DecidableEq

namespace Response

/-- A request served. -/
def ok (payload : ByteArray) : Response :=
  ⟨.ok, payload⟩

/-- The bytes of a refusal: the mark, the reason, the end of the line. -/
def refusalLine (reason : List UInt8) : List UInt8 :=
  Ascii.bytes "ERR " ++ reason ++ [Ascii.newline]

/-- A request refused for a reason. -/
def refuse (reason : List UInt8) : Response :=
  ⟨.error, (refusalLine reason).toByteArray⟩

/-- Whether the request was refused. -/
def isError (response : Response) : Bool :=
  response.status == .error

/-- The payload of a refusal is its line. -/
@[simp] theorem toList_payload_refuse (reason : List UInt8) :
    (refuse reason).payload.data.toList = refusalLine reason := by
  simp [refuse]

end Response

end TrackServer
