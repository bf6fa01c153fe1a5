import TrackServer.Report
import TrackServer.Tuning
import TrackServer.Yaml.Integer

/-!
# Tuning/Reader — tuning files

A tuning file is a flat YAML document whose keys are the names of knobs, each at most once.  A knob
that is left out keeps its default, and an empty document leaves all of them out.

A file is refused for the first of: it cannot be read as text, it is no such document, one of its
sizes is zero.  What a document says is told by a `Decoder`, and `decode` is the one in use.
-/

namespace TrackServer

/-- Why a text is no tuning. -/
inductive InvalidTuning
  | document (fault : Yaml.Fault)
  | unknownKnob
  | repeatedKnob
  | invalidSize
  deriving DecidableEq, Repr

/-- Why there is no tuning. -/
inductive TuningFault
  | unreadable (path : Path) (cause : FileFault)
  | invalid (cause : InvalidTuning)
  | zero (size : Tuning.ZeroSize)
  deriving DecidableEq, Repr

/-- The report of a refused tuning file. -/
def TuningFault.report : TuningFault → Report
  | .unreadable path cause => ⟨"failed to read tuning file " ++ Path.display path, [cause.message]⟩
  | .invalid _ => ⟨"invalid tuning file", []⟩
  | .zero size => ⟨size.message, []⟩

namespace Tuning

/-- The knobs of a tuning. -/
inductive Knob
  | bindHost
  | chunkSize
  | maxRequestSize
  | eventsCapacity
  deriving DecidableEq, Repr

/-- The knob of a name in a tuning file. -/
def Knob.ofName? (name : String) : Option Knob :=
  match name with
  | "bind_host" => some .bindHost
  | "chunk_size" => some .chunkSize
  | "max_request_size" => some .maxRequestSize
  | "events_capacity" => some .eventsCapacity
  | _ => none

/-- Sizes are machine words. -/
def sizeBound : Nat := UInt64.size

/-- A tuning with one knob set. -/
def set (tuning : Tuning) (knob : Knob) (value : Yaml.Scalar) : Except InvalidTuning Tuning :=
  let size (change : Nat → Tuning) : Except InvalidTuning Tuning :=
    match value.unsigned? sizeBound with
    | none => .error .invalidSize
    | some n => .ok (change n)
  match knob with
  | .bindHost => .ok { tuning with bindHost := String.ofList value.text }
  | .chunkSize => size fun n => { tuning with chunkSize := n }
  | .maxRequestSize => size fun n => { tuning with maxRequestSize := n }
  | .eventsCapacity => size fun n => { tuning with eventsCapacity := n }

/-- A tuning with the knobs of entries set, none of them among those seen already. -/
def setAll (tuning : Tuning) (seen : List Knob) :
    List (Yaml.Scalar × Yaml.Scalar) → Except InvalidTuning Tuning
  | [] => .ok tuning
  | (key, value) :: rest =>
    match Knob.ofName? (String.ofList key.text) with
    | none => .error .unknownKnob
    | some knob =>
      if knob ∈ seen then .error .repeatedKnob
      else (tuning.set knob value).bind fun tuning => tuning.setAll (knob :: seen) rest

/-- The tuning that a text writes. -/
def decode (text : String) : Except InvalidTuning Tuning :=
  match Yaml.Document.ofText text with
  | .error fault => .error (.document fault)
  | .ok document => standard.setAll [] document.entries

/-- A reader of texts, which says what tuning they write. -/
abbrev Decoder := String → Except InvalidTuning Tuning

/-- A tuning without zero sizes. -/
def validate (tuning : Tuning) : Except TuningFault Tuning :=
  match tuning.zeroSize? with
  | some size => .error (.zero size)
  | none => .ok tuning

/-- **The tuning of a text.** -/
def ofText (text : String) (decode : Decoder := Tuning.decode) : Except TuningFault Tuning :=
  match decode text with
  | .error cause => .error (.invalid cause)
  | .ok tuning => tuning.validate

/-- **The tuning of a file.** -/
def ofFile (files : FileSystem) (path : Path) (decode : Decoder := Tuning.decode) :
    Except TuningFault Tuning :=
  match files.readText path with
  | .error cause => .error (.unreadable path cause)
  | .ok text => ofText text decode

/-- The tuning of the file that was named, or the standard one. -/
def load (files : FileSystem) (named : Option Path) (decode : Decoder := Tuning.decode) :
    Except TuningFault Tuning :=
  match named with
  | none => .ok standard
  | some path => ofFile files path decode

end Tuning

end TrackServer
