import TrackServer.Files

/-!
# Track — one entry of the catalog

A track has the number clients ask for it by, the name they see, and perhaps a description.  Its
bytes are held in memory or stand in a file, which is read anew each time they are asked for.
-/

namespace TrackServer

/-- Where a track's bytes are. -/
inductive Source
  | file (path : Path)
  | memory (content : ByteArray)
  deriving DecidableEq

/-- One track. -/
structure Track where
  id : Nat
  name : String
  source : Source
  info : Option String
  deriving DecidableEq

namespace Track

/-- The track under another number. -/
def renumber (track : Track) (id : Nat) : Track :=
  { track with id }

/-- The bytes of a track, as they are now. -/
def load (track : Track) (files : FileSystem) : Except FileFault ByteArray :=
  match track.source with
  | .file path => files.read path
  | .memory content => .ok content

/-- The line of a track in the listing. -/
def line (track : Track) : String :=
  toString track.id ++ " " ++ track.name ++ "\n"

end Track

end TrackServer
