import TrackServer.Catalog
import TrackServer.Report

/-!
# Catalog/Scan — the catalog of a directory

The tracks of a directory are its regular files whose extension is `mp3` in any case of its letters,
in the byte order of their names.  A track is shown under the displayed text of its file name, and a
regular file of that text and a further `.info` describes it.

The directory is listed in any order, `collect` sorts what it is given; so the order of the listing
does not matter.  A description that is no text ends the scan, at the first such track in order.
-/

namespace TrackServer

/-- Why a directory gives no catalog. -/
inductive ScanFault
  | directory (path : Path) (cause : FileFault)
  | listing (path : Path) (cause : FileFault)
  | description (path : Path) (cause : FileFault)
  deriving DecidableEq, Repr

/-- The report of a failed scan. -/
def ScanFault.report : ScanFault → Report
  | .directory path cause => ⟨"failed to read directory " ++ Path.display path, [cause.message]⟩
  | .listing path cause => ⟨"failed to list " ++ Path.display path, [cause.message]⟩
  | .description path cause => ⟨"failed to read " ++ Path.display path, [cause.message]⟩

namespace Catalog

/-- The extension of track files. -/
def trackExtension : List UInt8 :=
  Ascii.bytes "mp3"

/-- What the name of a description has after the name of its track. -/
def infoEnding : List UInt8 :=
  Ascii.bytes ".info"

/-- Whether a file name has the extension of tracks, in any case of its letters. -/
def namesTrack (name : FileName) : Bool :=
  name.extension?.any (Ascii.sameLetters · trackExtension)

variable (files : FileSystem) (directory : Path)

/-- Whether a name in the directory is a track: a regular file with the extension of tracks. -/
def isTrack (name : FileName) : Bool :=
  files.isFile (Path.join directory name) && namesTrack name

/-- The names of the tracks among the names of the directory, in byte order. -/
def trackNames (names : List FileName) : List FileName :=
  (names.filter (isTrack files directory)).mergeSort fun u v => decide (u ≤ v)

/-- Where the description of a displayed track name is looked for. -/
def infoPath (shown : String) : Path :=
  Path.join directory (Ascii.bytes shown ++ infoEnding)

/-- The description of a displayed track name, if there is a regular file for it. -/
def readInfo (shown : String) : Except ScanFault (Option String) :=
  let path := infoPath directory shown
  if files.isFile path then
    match files.readText path with
    | .error cause => .error (.description path cause)
    | .ok text => .ok (some text)
  else .ok none

/-- The track of one file name, not yet numbered. -/
def describe (name : FileName) : Except ScanFault Track :=
  let shown := Utf8.display name
  (readInfo files directory shown).map fun info =>
    ⟨0, shown, .file (Path.join directory name), info⟩

/-- **The catalog of a directory whose names are listed in some order.** -/
def collect (names : List FileName) : Except ScanFault Catalog :=
  ((trackNames files directory names).mapM (describe files directory)).map ofTracks

/-- Why a directory is not listed: it does not open, or listing it breaks off. -/
def listingFault (cause : FileFault) : ScanFault :=
  if files.opens directory then .listing directory cause else .directory directory cause

/-- **The catalog of a directory.** -/
def scan : Except ScanFault Catalog :=
  match files.readDirectory directory with
  | .error cause => .error (listingFault files directory cause)
  | .ok names => collect files directory names

end Catalog

end TrackServer
