import TrackServer.Address
import TrackServer.Text.Decimal
import TrackServer.Tuning.Reader

/-!
# Config — what a server is started with

The command line names a port and a directory of tracks; everything else is tuning.  The arguments
are checked in that order: their number, the port, the directory.

The address to listen on is the tuning's host with the port.  Addresses written out need no look-up;
names are looked up in the `Names` that the machine knows.
-/

namespace TrackServer

/-- What a server is started with. -/
structure Config where
  port : Nat
  directory : Path
  tuning : Tuning
  deriving DecidableEq

/-- Why arguments are refused. -/
inductive ConfigFault
  | usage (program : String)
  | invalidPort (text : String) (cause : Decimal.Fault)
  | notADirectory (path : Path)
  deriving DecidableEq, Repr

/-- The report of refused arguments. -/
def ConfigFault.report : ConfigFault → Report
  | .usage program => ⟨"usage: " ++ program ++ " <port> <file-directory>", []⟩
  | .invalidPort text cause => ⟨"invalid port: " ++ text, [cause.message]⟩
  | .notADirectory path => ⟨Path.display path ++ " is not a directory", []⟩

/-- Why there is no address to listen on. -/
inductive AddressFault
  | unresolved (host cause : String)
  | noAddress (host : String)
  deriving DecidableEq, Repr

/-- The report of a missing address. -/
def AddressFault.report : AddressFault → Report
  | .unresolved host cause => ⟨"cannot resolve " ++ host, [cause]⟩
  | .noAddress host => ⟨"no address for " ++ host, []⟩

/-- The addresses of names, or why a name has none. -/
abbrev Names := String → Except String (List Host)

namespace Config

/-- Ports are 16 bits. -/
def portBound : Nat := UInt16.size

/-- What the program is called when nobody says. -/
def programName : String := "jukebox"

/-- **The configuration of arguments**, the name of the program first. -/
def ofArguments (files : FileSystem) (arguments : List String) (tuning : Tuning) :
    Except ConfigFault Config :=
  match arguments with
  | [_, portText, directoryText] =>
    match Decimal.read portBound (Ascii.bytes portText) with
    | .error cause => .error (.invalidPort portText cause)
    | .ok port =>
      let directory := Ascii.bytes directoryText
      if files.isDirectory directory then .ok ⟨port, directory, tuning⟩
      else .error (.notADirectory directory)
  | _ => .error (.usage (arguments.headD programName))

variable (config : Config)

/-- The hosts of the tuning's host text. -/
def hosts (names : Names) : Except AddressFault (List Host) :=
  let text := config.tuning.bindHost
  match Host.parse? text with
  | some host => .ok [host]
  | none =>
    if text.contains (Char.ofNat 0) then .error (.unresolved text FileFault.nulByte.message)
    else
      match names text with
      | .error cause => .error (.unresolved text cause)
      | .ok hosts => .ok hosts

/-- **The address to listen on**: the first of the hosts, with the port. -/
def listenAddress (names : Names) : Except AddressFault SocketAddress :=
  (config.hosts names).bind fun
    | [] => .error (.noAddress config.tuning.bindHost)
    | host :: _ => .ok ⟨host, config.port⟩

end Config

end TrackServer
