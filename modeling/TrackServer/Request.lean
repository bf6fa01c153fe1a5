import TrackServer.Text.Ascii

/-!
# Request — what a client asks for

A connection carries one request: the list of all tracks, the description of one, or the bytes of
one.  A track is named by its number in the catalog.  `Command` is the keyword alone, in any case
of its letters.
-/

namespace TrackServer

/-- The keyword of a request. -/
inductive Command
  | list
  | info
  | play
  deriving DecidableEq, Repr

/-- One request. -/
inductive Request
  | list
  | info (track : Nat)
  | play (track : Nat)
  deriving DecidableEq, Repr

namespace Command

/-- The keyword as it is written. -/
def keyword : Command → String
  | .list => "LIST"
  | .info => "INFO"
  | .play => "PLAY"

/-- The command a word names, whatever the case of its letters. -/
def ofKeyword? (word : List UInt8) : Option Command :=
  [Command.list, .info, .play].find? fun c => Ascii.sameLetters word (Ascii.bytes c.keyword)

/-- Whether a track number follows the keyword. -/
def takesTrack : Command → Bool
  | .list => false
  | .info => true
  | .play => true

end Command

namespace Request

/-- The track a request is about. -/
def track? : Request → Option Nat
  | .list => none
  | .info track => some track
  | .play track => some track

end Request

end TrackServer
