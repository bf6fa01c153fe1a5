import TrackServer.Catalog.Scan
import TrackServer.Config
import TrackServer.Text.Space
import TrackServer.Text.Utf8

/-!
# Startup — from the command line to a server about to listen

Starting goes through the tuning, the arguments, the directory of tracks and the address, in this
order, and ends at the first fault; so nothing listens before everything is known to be in order.
A successful scan is logged, one line for the number of tracks and one for each track.  A message
never holds a character that a terminal would obey.

Arguments are handed over as bytes and have to be text, all of them.  One that is not is no fault of
the start's own: asking for it breaks the program off, before their number is looked at (`Ending`).
-/

namespace TrackServer

/-- What a program is started in. -/
structure Environment where
  files : FileSystem
  /-- The command line as it was handed over, the name of the program first. -/
  arguments : List (List UInt8)
  /-- The tuning file, if one was named. -/
  tuningFile : Option Path
  names : Names

/-- Why a program does not come to listen. -/
inductive StartupFault
  | tuning (fault : TuningFault)
  | config (fault : ConfigFault)
  | scan (directory : Path) (fault : ScanFault)
  | address (fault : AddressFault)
  deriving DecidableEq, Repr

/-- The report of a failed start. -/
def StartupFault.report : StartupFault → Report
  | .tuning fault => fault.report
  | .config fault => fault.report
  | .scan directory fault => fault.report.under ("failed to scan " ++ Path.display directory)
  | .address fault => fault.report

/-- How a start ends that does not come to listen. -/
inductive Ending
  /-- With a fault of its own, which is reported. -/
  | reported (fault : StartupFault)
  /-- Broken off, as an argument is no text.  What is printed of it is not the program's. -/
  | brokenOff (argument : List UInt8)
  deriving DecidableEq, Repr

namespace Ending

/-- The exit status. -/
def status : Ending → UInt32
  | .reported _ => 1
  | .brokenOff _ => 101

/-- What the program itself says of it. -/
def report? : Ending → Option Report
  | .reported fault => some fault.report
  | .brokenOff _ => none

end Ending

/-- One line of the log: a message and named values. -/
structure LogLine where
  message : String
  values : List (String × String)
  deriving DecidableEq, Repr

/-- The digits of a character's number in base 16, at least two. -/
def hexOf (c : Char) : String :=
  let digits := String.ofList (Nat.toDigits 16 c.toNat)
  if digits.length < 2 then "0" ++ digits else digits

/-- A character as a log shows it.  Those that a terminal would obey are written as their
numbers. -/
def shownInLog (c : Char) : String :=
  if c.toNat ∈ [0x07, 0x08, 0x0C, 0x1B, 0x7F] then "\\x" ++ hexOf c
  else if 0x80 ≤ c.toNat ∧ c.toNat ≤ 0x9F then "\\u\x7b" ++ hexOf c ++ "\x7d"
  else c.toString

/-- A line of the log as it is printed. -/
def LogLine.render (line : LogLine) : String :=
  "INFO " ++ String.join (line.message.toList.map shownInLog) ++
    String.join (line.values.map fun (name, value) => " " ++ name ++ "=" ++ value)

/-- The line of a track. -/
def Track.logLine (track : Track) : LogLine :=
  ⟨track.name,
    ("id", toString track.id) ::
      (track.info.map fun info => ("info", Space.trimEnd info)).toList⟩

/-- The lines of a scanned catalog. -/
def Catalog.logLines (catalog : Catalog) : List LogLine :=
  ⟨"Found " ++ toString catalog.size ++ " songs", []⟩ :: catalog.tracks.map Track.logLine

/-- What a server about to listen has. -/
structure Prepared where
  address : SocketAddress
  catalog : Catalog
  tuning : Tuning

namespace Startup

/-- An argument as text; if it is none, the argument. -/
def textOf (argument : List UInt8) : Except (List UInt8) String :=
  match Utf8.text? argument with
  | none => .error argument
  | some text => .ok text

/-- Arguments as texts, or the first of them that is none. -/
def texts (arguments : List (List UInt8)) : Except (List UInt8) (List String) :=
  arguments.mapM textOf

/-- The configuration of an environment. -/
def configure (environment : Environment) (decode : Tuning.Decoder := Tuning.decode) :
    Except Ending Config :=
  match Tuning.load environment.files environment.tuningFile decode with
  | .error fault => .error (.reported (.tuning fault))
  | .ok tuning =>
    match texts environment.arguments with
    | .error argument => .error (.brokenOff argument)
    | .ok arguments =>
      match Config.ofArguments environment.files arguments tuning with
      | .error fault => .error (.reported (.config fault))
      | .ok config => .ok config

/-- The catalog of a configuration. -/
def scanTracks (files : FileSystem) (config : Config) : Except Ending Catalog :=
  match Catalog.scan files config.directory with
  | .error fault => .error (.reported (.scan config.directory fault))
  | .ok catalog => .ok catalog

/-- A server about to listen, of a configuration and its catalog. -/
def locate (names : Names) (config : Config) (catalog : Catalog) : Except Ending Prepared :=
  match config.listenAddress names with
  | .error fault => .error (.reported (.address fault))
  | .ok address => .ok ⟨address, catalog, config.tuning⟩

/-- **Start up**: what is logged, and the server about to listen or how the start ends. -/
def prepare (environment : Environment) (decode : Tuning.Decoder := Tuning.decode) :
    List LogLine × Except Ending Prepared :=
  match configure environment decode with
  | .error ending => ([], .error ending)
  | .ok config =>
    match scanTracks environment.files config with
    | .error ending => ([], .error ending)
    | .ok catalog => (catalog.logLines, locate environment.names config catalog)

end Startup

end TrackServer
