import TrackServer.Track

/-!
# Catalog — the tracks a server offers

A catalog is made once and only read afterwards.  Its tracks are numbered by their place, so the
number in the listing is the number to ask for, whatever numbers the tracks had before
(`get?_ofTracks`).
-/

namespace TrackServer

/-- The tracks on offer, in the order of their numbers. -/
structure Catalog where
  tracks : List Track
  deriving DecidableEq

namespace Catalog

/-- The tracks numbered by their place. -/
def ofTracks (tracks : List Track) : Catalog :=
  ⟨tracks.mapIdx fun place track => track.renumber place⟩

/-- The number of tracks. -/
def size (catalog : Catalog) : Nat :=
  catalog.tracks.length

/-- Whether there is no track. -/
def isEmpty (catalog : Catalog) : Bool :=
  catalog.tracks.isEmpty

/-- The track with a number. -/
def get? (catalog : Catalog) (id : Nat) : Option Track :=
  catalog.tracks[id]?

/-- One line for every track: its number and its name. -/
def listing (catalog : Catalog) : String :=
  String.join (catalog.tracks.map Track.line)

@[simp] theorem size_ofTracks (tracks : List Track) : (ofTracks tracks).size = tracks.length := by
  simp [ofTracks, size]

/-- **A number finds the track in its place, renumbered.** -/
theorem get?_ofTracks (tracks : List Track) (id : Nat) :
    (ofTracks tracks).get? id = tracks[id]?.map (·.renumber id) := by
  simp [ofTracks, get?]

end Catalog

end TrackServer
