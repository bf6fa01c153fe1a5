import Std.Async.DNS
import Std.Async.TCP
import Std.Sync.Mutex
import TrackServer.Server

/-!
# Main — the command line

`main` looks at the machine, lets `Startup.prepare` decide, prints the log or the fault, and then
runs a `Server` on the machine's sockets.  All tasks share the server.  What a task sees on its
socket it supplies, and then it notifies the server: of a client that came, of bytes that arrived,
of a chunk that went out.  Which of them a client's task waits for is what the registry says of its
token.  A chunk is taken only when the one before it was sent.

The files are those of the moment of the start.
-/

namespace TrackServer.CommandLine

open Std.Async

/-! ## The machine -/

/-- An entry, unless looking at its contents fails; then it is unreadable. -/
def readable (entry : Entry) (look : IO Entry) : IO Entry := do
  try look
  catch error =>
    let cause := match error with
      | .permissionDenied .. => FileFault.permissionDenied
      | _ => .inputOutput
    return .unreadable entry (.unopened cause)

/-- What stands at a path, links followed, if anything does. -/
def entryAt? (path : String) : IO (Option Entry) := do
  let place := (← IO.currentDir) / path
  try
    match (← place.metadata).type with
    | .dir => return some (← readable .directory do discard place.readDir; return .directory)
    | .file =>
      return some (← readable (.file .empty) do return .file (← IO.FS.readBinFile place))
    | _ => return some .device
  catch _ => return none

/-- The names in a directory, none if it cannot be read. -/
def namesAt (path : String) : IO (List String) := do
  let place := (← IO.currentDir) / path
  try
    return (← place.readDir).toList.map (·.fileName)
  catch _ => return []

/-- The location of names from the root. -/
def locationOf (names : List String) : Location :=
  names.map Ascii.bytes

/-- Record what stands at names from the root. -/
def record (files : FileSystem) (names : List String) : IO FileSystem := do
  match ← entryAt? ("/" ++ "/".intercalate names) with
  | some entry => return files.put (locationOf names) entry
  | none => return files

/-- Record what stands along further names, from names on. -/
def recordAlong (files : FileSystem) (names : List String) :
    List String → IO (FileSystem × List String)
  | [] => return (files, names)
  | name :: rest =>
    match name with
    | "" => recordAlong files names rest
    | "." => recordAlong files names rest
    | ".." => recordAlong files names.dropLast rest
    | _ => do recordAlong (← record files (names ++ [name])) (names ++ [name]) rest

/-- Record what a path leads through, and what a directory at its end holds. -/
def recordPath (files : FileSystem) (path : String) : IO FileSystem := do
  let full := ((← IO.currentDir) / path).toString
  let (files, names) ← recordAlong files [] (full.splitOn "/")
  (← namesAt full).foldlM (fun files name => record files (names ++ [name])) files

/-- The files that a start looks at: those at the paths. -/
def filesAt (paths : List String) : IO FileSystem := do
  let here := (← IO.currentDir).toString
  let (files, names) ← recordAlong .empty [] (here.splitOn "/")
  paths.foldlM recordPath { files with current := locationOf names }

/-! ## Addresses -/

/-- An address as the system's sockets take it. -/
def netAddress (address : SocketAddress) : Std.Net.SocketAddress :=
  let port := address.port.toUInt16
  match address.host with
  | .v4 octets =>
    let octet (i : Nat) := ((octets[i]?).getD 0).toUInt8
    .v4 ⟨.ofParts (octet 0) (octet 1) (octet 2) (octet 3), port⟩
  | .v6 groups =>
    let group (i : Nat) := ((groups[i]?).getD 0).toUInt16
    .v6 ⟨.ofParts (group 0) (group 1) (group 2) (group 3) (group 4) (group 5) (group 6) (group 7),
      port⟩

/-- What is known of a name: the addresses that a look-up gives. -/
def lookUp (name : String) : IO (Except String (List Host)) := do
  try
    let found ← (DNS.getAddrInfo name "").block
    return .ok (found.toList.map fun
      | .v4 address => .v4 (address.octets.toList.map UInt8.toNat)
      | .v6 address => .v6 (address.segments.toList.map UInt16.toNat))
  catch _ => return .error "failed to lookup address information: Name or service not known"

/-! ## Serving -/

/-- The running server, shared by all tasks. -/
abbrev Shared := Std.Mutex Server

/-- Look at the server. -/
def Shared.look (shared : Shared) (f : Server → α) : IO α :=
  shared.atomically (f <$> get)

/-- Change the server, and say what is told of the change. -/
def Shared.change (shared : Shared) (f : Server → α × Server) : IO α :=
  shared.atomically (modifyGet f)

/-- Take in a client that has come, and say under which token. -/
def accepted (server : Server) : Token × Server :=
  let arrival : Arrival := ⟨[], [], true, true⟩
  (server.table.nextToken,
    (server.queue [.arrived arrival, .wouldBlock]).turn [⟨listener, true, false, false⟩])

/-- Hand over what arrived for a client; nothing arrives when it has hung up. -/
def received (token : Token) (arrived : Option ByteArray) (server : Server) : Unit × Server :=
  match arrived with
  | some bytes =>
    ((), (server.supply token (Inlet.deliver bytes.toList ++ [.wouldBlock]) []).turn
      [⟨token, true, false, false⟩])
  | none => ((), server.turn [⟨token, true, false, true⟩])

/-- The bytes that were stored for a token. -/
def stored (server : Server) (token : Token) : ByteArray :=
  ((server.connection? token).map (·.socket.outlet.stored)).getD ByteArray.empty

/-- Let a client write one chunk: the bytes it stored. -/
def written (token : Token) (server : Server) : ByteArray × Server :=
  let after := (server.supply token [] [.accept (max server.service.chunkSize 1), .wouldBlock]).turn
    [⟨token, false, true, false⟩]
  ((stored after token).extract (stored server token).size (stored after token).size, after)

/-- Forget what was kept of a closed connection. -/
def forgotten (token : Token) (server : Server) : Unit × Server :=
  ((), { server with closed := server.closed.filter (·.1 != token) })

/-- Serve one client for as long as its token is registered. -/
def serveClient (shared : Shared) (token : Token) (client : TCP.Socket.Client) : Async Unit := do
  repeat
    match ← shared.look (·.registry.lookup token) with
    | none => break
    | some .input => shared.change (received token (← client.recv? readLimit.toUInt64))
    | some .inputAndOutput => client.send (← shared.change (written token))

/-- Serve one client to its end.  A socket that fails counts as hung up. -/
def attend (shared : Shared) (token : Token) (client : TCP.Socket.Client) : Async Unit := do
  try serveClient shared token client
  catch _ => shared.change (received token none)
  shared.change (forgotten token)

/-- Serve all who come. -/
def serve (service : Service) (listening : TCP.Socket.Server) : Async Unit := do
  let shared : Shared ← Std.Mutex.new (Server.ofService service)
  repeat
    try
      let client ← listening.accept
      background (attend shared (← shared.change accepted) client)
    catch _ => continue

/-- Listen at an address. -/
def listenAt (address : SocketAddress) : IO (Except BindFault TCP.Socket.Server) := do
  let listening ← TCP.Socket.Server.mk
  try
    listening.bind (netAddress address)
    listening.listen 128
    return .ok listening
  catch error =>
    let cause := match error with
      | .resourceBusy .. => BindFault.addressInUse
      | _ => ⟨.other, toString error⟩
    return .error ⟨address, cause⟩

/-! ## Starting -/

/-- The arguments end with the directory of tracks; the tuning file may be anywhere. -/
def pathsOf (arguments : List String) (tuningFile : Option String) : List String :=
  arguments.getLast?.toList ++ tuningFile.toList

/-- Prepare the start.  A name that the address depends on is looked up first. -/
def prepare (files : FileSystem) (arguments : List String) (tuningFile : Option String) :
    IO (List LogLine × Except Ending Prepared) := do
  let prepareWith (names : Names) := Startup.prepare
    ⟨files, (Config.programName :: arguments).map Ascii.bytes, tuningFile.map Ascii.bytes, names⟩
  match prepareWith fun _ => .ok [] with
  | (_, .error (.reported (.address (.noAddress name)))) =>
    let known ← lookUp name
    return prepareWith fun _ => known
  | prepared => return prepared

/-- Print a line of the log at once. -/
def log (line : LogLine) : IO Unit := do
  let output ← IO.getStdout
  output.putStrLn line.render
  output.flush

/-- Print the report of what ends the program, if it has one. -/
def fail (report : Option Report) (status : UInt32) : IO UInt32 := do
  report.forM fun report => IO.eprint report.render
  return status

/-- Start a server on the tracks of a directory and serve for good. -/
def run (arguments : List String) : IO UInt32 := do
  let tuningFile ← IO.getEnv "JUKEBOX_TUNING"
  let files ← filesAt (pathsOf arguments tuningFile)
  let (lines, result) ← prepare files arguments tuningFile
  lines.forM log
  match result with
  | .error ending => fail ending.report? ending.status
  | .ok prepared =>
    match ← listenAt prepared.address with
    | .error fault => fail fault.report 1
    | .ok listening =>
      log ⟨"Listening on " ++ prepared.address.render, []⟩
      (serve (prepared.tuning.service prepared.catalog files) listening).block
      return 0

end TrackServer.CommandLine

/-- The command line. -/
def main (arguments : List String) : IO UInt32 :=
  TrackServer.CommandLine.run arguments
