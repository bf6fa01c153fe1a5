import TrackServer.Startup
import TrackServer.Table

/-!
# Server — one loop over all clients

A server owns the listening socket, the table of live connections and the registry that says for
which tokens readiness is to be reported.  It is driven by notifications: `dispatch` handles one,
`turn` a batch that was fetched at once.

The registry reports edges.  So a connection is read until it would block, and as soon as it has a
response it is registered anew for output as well; if that fails it is closed, as after a hang-up,
the end of its stream, a fault, or its last byte.  Notifications for tokens that are no longer live
change nothing.

What a new client's socket will do, and whether registering it succeeds, comes with the client
(`Arrival`); so all that happens is a function of the arrivals and the notifications.  Whoever runs
a server adds to what is to come as it happens (`queue`, `supply`) and then notifies.
-/

namespace TrackServer

/-- Why a server cannot listen at an address. -/
structure BindFault where
  address : SocketAddress
  cause : Fault
  deriving DecidableEq, Repr

namespace BindFault

/-- The fault of an address that somebody listens at. -/
def addressInUse : Fault :=
  ⟨.addressInUse, "Address already in use (os error 98)"⟩

/-- The report of a failed bind. -/
def report (fault : BindFault) : Report :=
  ⟨"failed to bind " ++ fault.address.render, [fault.cause.message]⟩

end BindFault

/-- For which readiness a token is registered. -/
inductive Interest
  | input
  | inputAndOutput
  deriving DecidableEq, Repr

/-- A client at the listening socket: what its socket will do, and whether registering it and
registering it anew will succeed. -/
structure Arrival where
  reads : List ReadResult
  writes : List WriteStep
  registers : Bool
  rearms : Bool
  deriving DecidableEq

/-- The result of accepting one client. -/
inductive AcceptResult
  | arrived (arrival : Arrival)
  | wouldBlock
  | interrupted
  /-- The client went away before it was accepted. -/
  | aborted
  | failed (fault : Fault)
  deriving DecidableEq

/-- A live client: its connection, and whether registering it anew will succeed. -/
structure Client where
  connection : Connection
  rearms : Bool
  deriving DecidableEq

/-- What is reported of one token. -/
structure Notification where
  token : Token
  readable : Bool
  writable : Bool
  hangup : Bool
  deriving DecidableEq, Repr

/-- A server between two notifications. -/
structure Server where
  service : Service
  table : Table Client
  /-- The clients' tokens in the registry. -/
  registry : List (Token × Interest)
  /-- What accepting will give. -/
  backlog : List AcceptResult
  /-- The connections that were closed, last first. -/
  closed : List (Token × Connection)

namespace Server

/-- A server that has just begun to listen. -/
def ofService (service : Service) : Server :=
  ⟨service, .empty, [], [], []⟩

variable (server : Server)

/-- The number of live connections. -/
def connectionCount : Nat :=
  server.table.size

/-- The connection of a token, live or closed. -/
def connection? (token : Token) : Option Connection :=
  match server.table.get? token with
  | some client => some client.connection
  | none => server.closed.lookup token

/-! ## Changes -/

/-- Set the interest of a token. -/
def register (token : Token) (interest : Interest) : Server :=
  { server with registry := (token, interest) :: server.registry.filter (·.1 != token) }

/-- Set the connection of a live token. -/
def setConnection (token : Token) (connection : Connection) : Server :=
  { server with table := server.table.modify token fun client => { client with connection } }

/-- **Close a connection** and forget its token.  Unknown tokens are ignored. -/
def closeConnection (token : Token) : Server :=
  match server.table.get? token with
  | none => server
  | some client =>
    { server with
      table := server.table.remove token
      registry := server.registry.filter (·.1 != token)
      closed := (token, client.connection.close) :: server.closed }

/-- Register a live token for output as well, and say whether that succeeded; if not the connection
is closed. -/
def rearm (token : Token) : Bool × Server :=
  match server.table.get? token with
  | none => (false, server)
  | some client =>
    if client.rearms then (true, server.register token .inputAndOutput)
    else (false, server.closeConnection token)

/-! ## What is to come -/

/-- More results of accepting to come. -/
def queue (more : List AcceptResult) : Server :=
  { server with backlog := server.backlog ++ more }

/-- More results to come on the socket of a live client.  Unknown tokens are ignored. -/
def supply (token : Token) (reads : List ReadResult) (writes : List WriteStep) : Server :=
  match server.table.get? token with
  | none => server
  | some client => server.setConnection token (client.connection.extendScripts reads writes)

/-! ## Arrivals -/

/-- Take a client in under the next token.  If it cannot be registered it is dropped; the token is
used up all the same. -/
def enroll (arrival : Arrival) : Server :=
  let (token, table) := server.table.reserve
  if arrival.registers then
    let socket := Socket.ofScripts arrival.reads arrival.writes
    let table := table.insert token ⟨.ofSocket socket, arrival.rearms⟩
    { server with table }.register token .input
  else { server with table }

/-- Accept clients until accepting would block or fails, over the results to come. -/
def acceptFrom (server : Server) : List AcceptResult → Server
  | [] => { server with backlog := [] }
  | .arrived arrival :: rest => (server.enroll arrival).acceptFrom rest
  | .interrupted :: rest => server.acceptFrom rest
  | .aborted :: rest => server.acceptFrom rest
  | .wouldBlock :: rest => { server with backlog := rest }
  | .failed _ :: rest => { server with backlog := rest }

/-- Accept clients until accepting would block or fails. -/
def acceptAll : Server :=
  server.acceptFrom server.backlog

/-! ## Notifications -/

/-- Input readiness: whether output readiness is still to be looked at, and the server. -/
def onReadable (token : Token) : Bool × Server :=
  match server.table.get? token with
  | none => (false, server)
  | some client =>
    let (next, connection) := client.connection.handleInput server.service
    let server := server.setConnection token connection
    match next with
    | .close => (false, server.closeConnection token)
    | .write => if client.connection.isReceiving then server.rearm token else (true, server)
    | .read => (true, server)

/-- Output readiness. -/
def onWritable (token : Token) : Server :=
  match server.table.get? token with
  | none => server
  | some client =>
    let (next, connection) := client.connection.handleOutput
    let server := server.setConnection token connection
    match next with
    | .close => server.closeConnection token
    | _ => server

/-- The readiness of a client.  A hang-up closes unanswered; input comes before output. -/
def onClient (notification : Notification) : Server :=
  if notification.hangup then server.closeConnection notification.token
  else
    let (goesOn, server) :=
      if notification.readable then server.onReadable notification.token else (true, server)
    if goesOn && notification.writable then server.onWritable notification.token else server

/-- **Handle one notification.** -/
def dispatch (notification : Notification) : Server :=
  if notification.token = listener then
    if notification.readable then server.acceptAll else server
  else server.onClient notification

/-- **Handle a batch of notifications**, in order. -/
def turn (batch : List Notification) : Server :=
  batch.foldl dispatch server

end Server

end TrackServer
