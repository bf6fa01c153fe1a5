import TrackServer.Server

/-!
# Network — a server with its clients on one machine

Clients connect to the listening server, send bytes, read what the server wrote and go away.  The
network keeps, for each of them, the bytes on their way in either direction.  It gives the server
notifications on edges: when something new may be read or written on a token, the token is due, and
what is then reported is how its socket stands.

A connection that is about to read is supplied with the bytes that arrived, and the end of the
stream if the client sends no more; one that is about to write with room for as many bytes as a
buffer holds.  From there on either would block, so what is supplied is used up, but for the bytes
behind a request that was answered: they stay unread.

`pump` runs the server's turns until nothing is due.

A machine may have no route to its own addresses.  A server can listen there all the same, but no
client reaches it: `connect` fails, and nothing else of the network changes.
-/

namespace TrackServer

/-- One client of a server, seen from its own side. -/
structure Peer where
  /-- The server's token for it, once it was accepted. -/
  token : Option Token
  /-- Bytes sent and not yet read by the server. -/
  inbound : List UInt8
  /-- Bytes written by the server and not yet read by the client. -/
  outbound : ByteArray
  /-- Whether the client can still send. -/
  sends : Bool
  /-- Whether the client closed its socket. -/
  gone : Bool
  /-- Whether the server closed its side. -/
  finished : Bool
  /-- Whether the connection was reset. -/
  reset : Bool
  /-- Whether a notification is due. -/
  due : Bool

namespace Peer

/-- A client that has just connected. -/
def fresh : Peer :=
  ⟨none, [], ByteArray.empty, true, false, false, false, false⟩

/-- How many unread bytes the buffers towards a client hold. -/
def room : Nat := 256 * 1024

variable (peer : Peer)

/-- How many bytes can still be written towards the client. -/
def free : Nat :=
  room - peer.outbound.size

/-- Whether the client sends no more. -/
def hasHungUp : Bool :=
  !peer.sends || peer.gone

/-- What reading will give. -/
def reads : List ReadResult :=
  (Piece.ofBytes peer.inbound).map .data ++ if peer.hasHungUp then [.ended] else [.wouldBlock]

/-- What writing chunks of a size will give. -/
def writes (chunkSize : Nat) : List WriteStep :=
  let chunk := max chunkSize 1
  List.replicate (peer.free / chunk) (.accept chunk) ++
    (if peer.free % chunk = 0 then [] else [.accept (peer.free % chunk)]) ++ [.wouldBlock]

/-- How the socket stands, under an interest. -/
def standing (token : Token) (interest : Interest) : Notification :=
  { token
    readable := !peer.inbound.isEmpty || peer.hasHungUp
    writable := interest == .inputAndOutput && 0 < peer.free
    hangup := peer.hasHungUp }

/-- The peer after its connection was served: what was read is gone, what was stored is on its
way. -/
def after (reading : Bool) (before connection : Connection) : Peer :=
  let stored := connection.socket.outlet.stored
  { peer with
    inbound :=
      if reading then
        connection.socket.inlet.script.flatMap fun
          | .data piece => piece.bytes
          | _ => []
      else peer.inbound
    outbound := peer.outbound ++ stored.extract before.socket.outlet.stored.size stored.size }

/-- The peer after the server closed.  Closing before all was read resets the connection. -/
def afterClose : Peer :=
  { peer with finished := true, reset := peer.reset || !peer.inbound.isEmpty, due := false }

/-- The peer after a notification for its token was handled by a server in which the token was
registered so far.  If it was registered anew it is due again. -/
def notified (token : Token) (interest : Option Interest) (reading : Bool) (before : Connection)
    (server : Server) : Peer :=
  match server.connection? token with
  | none => { peer with due := false }
  | some connection =>
    let served := peer.after reading before connection
    if server.table.contains token then
      { served with due := server.registry.lookup token != interest }
    else served.afterClose

end Peer

/-- A server that listens at an address, and its clients in the order in which they connected. -/
structure Network where
  server : Server
  address : SocketAddress
  peers : List Peer
  /-- How many notifications one turn fetches. -/
  capacity : Nat
  /-- Whether the machine has a route to its own addresses. -/
  hasRoute : Bool

namespace Network

/-- The fault of an address to which there is no route. -/
def unreachable : Fault :=
  ⟨.networkUnreachable, "Network is unreachable (os error 101)"⟩

/-- A network with a server and no client. -/
def ofServer (server : Server) (address : SocketAddress) (capacity : Nat) (hasRoute : Bool) :
    Network :=
  ⟨server, address, [], capacity, hasRoute⟩

variable (network : Network)

/-- Let another server listen at an address. -/
def bind (address : SocketAddress) : Except BindFault Unit :=
  if address = network.address then .error ⟨address, BindFault.addressInUse⟩ else .ok ()

/-! ## Turns -/

/-- Change a peer. -/
def modify (index : Nat) (change : Peer → Peer) : Network :=
  { network with peers := network.peers.modify index change }

/-- The clients that wait to be accepted. -/
def waiting : Nat :=
  (network.peers.filter (·.token.isNone)).length

/-- What accepting gives: all who wait. -/
def arrivals : List AcceptResult :=
  List.replicate network.waiting (.arrived ⟨[], [], true, true⟩) ++ [.wouldBlock]

/-- Tokens for the clients that wait, in the order in which they came. -/
def assignTokens (token : Token) : List Peer → List Peer
  | [] => []
  | peer :: rest =>
    if peer.token.isSome then peer :: assignTokens token rest
    else { peer with token := some token, due := true } :: assignTokens (token + 1) rest

/-- The listening socket is ready: the server accepts all who wait. -/
def deliverListener : Network :=
  { network with
    server := (network.server.queue network.arrivals).dispatch ⟨listener, true, false, false⟩
    peers := assignTokens network.server.table.nextToken network.peers }

/-- Give the server one notification of a peer, with what its connection is about to use. -/
def deliver (index : Nat) (peer : Peer) (notification : Notification) : Network :=
  let token := notification.token
  match network.server.table.get? token with
  | none => { network with peers := network.peers.set index { peer with due := false } }
  | some client =>
    let reading :=
      notification.readable && !notification.hangup && client.connection.isReceiving
    let writing := notification.writable && !notification.hangup
    let server := (network.server.supply token (if reading then peer.reads else [])
      (if writing then peer.writes network.server.service.chunkSize else [])).dispatch notification
    let interest := network.server.registry.lookup token
    let served := peer.notified token interest reading client.connection server
    { network with server, peers := network.peers.set index served }

/-- The notification that is due for a peer, if its socket stands so that there is one. -/
def dueNotification (peer : Peer) : Option Notification :=
  match peer.token with
  | none => none
  | some token =>
    if peer.due then
      match network.server.registry.lookup token with
      | none => none
      | some interest =>
        let standing := peer.standing token interest
        if standing.readable || standing.writable || standing.hangup then some standing else none
    else none

/-- Give the server the notifications of one turn, at most as many as it fetches, and say how many
they were. -/
def turnPeers (capacity : Nat) : List Nat → Network → Nat × Network
  | [], network => (0, network)
  | index :: rest, network =>
    match capacity, network.peers[index]? with
    | 0, _ => (0, network)
    | _ + 1, none => turnPeers capacity rest network
    | fewer + 1, some peer =>
      match network.dueNotification peer with
      | none => turnPeers capacity rest network
      | some notification =>
        let (count, network) := turnPeers fewer rest (network.deliver index peer notification)
        (count + 1, network)

/-- One turn of the server: the listening socket first.  The number of notifications comes with the
network. -/
def turn : Nat × Network :=
  if network.waiting = 0 then
    turnPeers network.capacity (List.range network.peers.length) network
  else
    let (count, network) :=
      turnPeers (network.capacity - 1) (List.range network.peers.length) network.deliverListener
    (count + 1, network)

/-- Turns until nothing is reported.  A client is due at most three times while no client does
anything: for what happened before, when it was accepted, and when it was registered anew. -/
def turns : Nat → Network → Network
  | 0, network => network
  | rounds + 1, network =>
    match network.turn with
    | (0, network) => network
    | (_ + 1, network) => turns rounds network

/-- **Run the server until nothing is reported any more.** -/
def pump : Network :=
  turns (3 * network.peers.length + 1) network

/-! ## Clients -/

/-- A new client connects, if there is a route: its index, and the network with it. -/
def connect : Except Fault (Nat × Network) :=
  if network.hasRoute then
    .ok (network.peers.length, { network with peers := network.peers ++ [Peer.fresh] })
  else .error unreachable

/-- A client sends bytes; says whether it could.  Sending nothing is no use of the connection, so it
fails only on a closed socket.  What is sent after the server closed resets the connection. -/
def send (index : Nat) (bytes : List UInt8) : Bool × Network :=
  match network.peers[index]? with
  | none => (false, network)
  | some peer =>
    if bytes = [] then (!peer.gone, network)
    else if peer.hasHungUp || peer.reset then (false, network)
    else if peer.finished then (true, network.modify index ({ · with reset := true }))
    else (true, network.modify index fun p => { p with inbound := p.inbound ++ bytes, due := true })

/-- A client closes its sending direction. -/
def shutdown (index : Nat) : Network :=
  network.modify index ({ · with sends := false, due := true })

/-- A client closes its socket. -/
def drop (index : Nat) : Network :=
  network.modify index ({ · with gone := true, due := true })

/-- A client takes at most so many of the bytes that arrived. -/
def take (index limit : Nat) : ByteArray × Network :=
  match network.peers[index]? with
  | none => (ByteArray.empty, network)
  | some peer =>
    let count := min limit peer.outbound.size
    (peer.outbound.extract 0 count,
      network.modify index fun p =>
        { p with outbound := p.outbound.extract count p.outbound.size, due := true })

/-- Whether a client would see the end of its stream, or a reset. -/
def isClosed (index : Nat) : Bool :=
  network.peers[index]?.any fun peer => peer.finished || peer.reset

theorem size_take_le (index limit : Nat) : (network.take index limit).1.size ≤ limit := by
  unfold take
  split
  · exact Nat.zero_le _
  · simp only [ByteArray.size_extract]
    omega

/-- Bytes for a client on top of those it has, the server being run meanwhile, until the limit is
reached or nothing more comes. -/
def receive (index limit : Nat) (data : ByteArray) (network : Network) : ByteArray × Network :=
  let taken := network.pump.take index (limit - data.size)
  if taken.1.size = 0 then (data, taken.2) else receive index limit (data ++ taken.1) taken.2
termination_by limit - data.size
decreasing_by
  have hle : taken.1.size ≤ limit - data.size := size_take_le network.pump index _
  change limit - (data ++ taken.1).size < limit - data.size
  rw [ByteArray.size_append]
  omega

/-- The most bytes that a client reads when it sets no limit. -/
def readBound : Nat := UInt64.size

/-- **A client reads**, up to a limit or to the end: the bytes, and whether it saw the end.  When
the limit is reached it does not look for the end. -/
def read (index : Nat) (limit : Option Nat) : ByteArray × Bool × Network :=
  let (data, network) := network.receive index (limit.getD readBound) ByteArray.empty
  (data, !limit.any (· ≤ data.size) && network.isClosed index, network)

end Network

end TrackServer
