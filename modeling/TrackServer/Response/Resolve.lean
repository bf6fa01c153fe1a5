import TrackServer.Catalog
import TrackServer.Request
import TrackServer.Response

/-!
# Response/Resolve — a request answered from the catalog

The list is the listing.  A description is sent as it stands, a track without one says so in a line.
The bytes of a track are read when they are asked for; if they cannot be read the request is
refused.  An unknown number is refused with that number.
-/

namespace TrackServer

namespace Response

/-- The reason for refusing an unknown number. -/
def noSuchTrack (id : Nat) : List UInt8 :=
  Ascii.bytes ("no such track " ++ toString id)

/-- The reason for refusing a track whose bytes cannot be read. -/
def unableToLoad : List UInt8 :=
  Ascii.bytes "unable to load track"

/-- The description of a track, or a line that there is none. -/
def ofInfo (track : Track) : Response :=
  .ok (track.info.getD ("No info available for " ++ track.name ++ "\n")).toUTF8

/-- The bytes of a track, or a refusal. -/
def ofContent (files : FileSystem) (track : Track) : Response :=
  match track.load files with
  | .ok content => .ok content
  | .error _ => .refuse unableToLoad

/-- An answer about one track. -/
def about (catalog : Catalog) (id : Nat) (answer : Track → Response) : Response :=
  match catalog.get? id with
  | some track => answer track
  | none => .refuse (noSuchTrack id)

end Response

/-- **The answer to a request.** -/
def Catalog.respond (catalog : Catalog) (files : FileSystem) : Request → Response
  | .list => .ok catalog.listing.toUTF8
  | .info id => .about catalog id .ofInfo
  | .play id => .about catalog id (.ofContent files)

end TrackServer
