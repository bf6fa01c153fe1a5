import TrackServer.Catalog.Scan
import TrackServer.Proofs.Results

/-!
# Proofs/Scanning — what a scan of a directory gives

A scan succeeds exactly if the directory can be listed and each of its tracks can be described
(`scan_eq_ok_iff`); the catalog then holds one track for every name of a track, in their order, and
each stands where its number says (`trackAt_of_scan`).
-/

namespace TrackServer

/-- Bytes are read as the text that they encode. -/
theorem fromUTF8?_eq_some_iff {content : ByteArray} {text : String} :
    String.fromUTF8? content = some text ↔ content = text.toByteArray := by
  rw [String.fromUTF8?]
  constructor
  · intro h
    split at h
    · rw [← Option.some.inj h]
      rfl
    · cases h
  · rintro rfl
    rw [dif_pos text.isValidUTF8]
    rfl

/-- Text that was read is the contents of the file. -/
theorem FileSystem.readText_eq_ok_iff {files : FileSystem} {path : Path} {text : String} :
    files.readText path = .ok text ↔ files.read path = .ok text.toByteArray := by
  rw [readText]
  cases files.read path with
  | error fault => simp [Except.bind]
  | ok content =>
    rw [Except.ok.injEq, ← fromUTF8?_eq_some_iff, Except.bind]
    cases String.fromUTF8? content <;> simp

/-- **What cannot be read as text**: reading it fails, or what it holds encodes no text. -/
inductive FileSystem.Textless (files : FileSystem) (path : Path) : FileFault → Prop
  | unread {cause : FileFault} (failed : files.read path = .error cause) :
    Textless files path cause
  | undecodable {content : ByteArray} (held : files.read path = .ok content)
    (noText : ∀ text : String, content ≠ text.toByteArray) : Textless files path .notText

theorem FileSystem.readText_eq_error_iff {files : FileSystem} {path : Path} {cause : FileFault} :
    files.readText path = .error cause ↔ files.Textless path cause := by
  rw [readText]
  constructor
  · intro h
    cases hread : files.read path with
    | error fault =>
      rw [hread] at h
      obtain rfl := Except.error.inj h
      exact .unread hread
    | ok content =>
      simp only [hread, Except.bind] at h
      cases htext : String.fromUTF8? content with
      | some text => rw [htext] at h; cases h
      | none =>
        rw [htext] at h
        obtain rfl := Except.error.inj h
        refine .undecodable hread fun text heq => ?_
        rw [fromUTF8?_eq_some_iff.2 heq] at htext
        cases htext
  · rintro (failed | ⟨held, noText⟩)
    · rw [failed, Except.bind]
    · have hnone : String.fromUTF8? _ = none := Option.eq_none_iff_forall_ne_some.2
        fun text htext => noText text (fromUTF8?_eq_some_iff.1 htext)
      simp only [held, Except.bind, hnone]

namespace Catalog

variable {files : FileSystem} {directory : Path} {name : FileName} {track : Track}
  {catalog : Catalog}

/-- A description is what the regular file for it holds; without such a file there is none. -/
theorem readInfo_eq_ok_iff {shown : String} {info : Option String} :
    readInfo files directory shown = .ok info ↔
      (files.isFile (infoPath directory shown) = true
          ∧ ∃ text, files.readText (infoPath directory shown) = .ok text ∧ info = some text)
        ∨ files.isFile (infoPath directory shown) = false ∧ info = none := by
  rw [readInfo]
  cases files.isFile (infoPath directory shown) with
  | false => simp [eq_comm]
  | true =>
    cases files.readText (infoPath directory shown) with
    | error cause => simp
    | ok text => simp [eq_comm]

/-- Only a regular file that is no text keeps a track from being described. -/
theorem describe_eq_error_iff {fault : ScanFault} : describe files directory name = .error fault ↔
    files.isFile (infoPath directory (Utf8.display name)) = true
      ∧ ∃ cause, files.Textless (infoPath directory (Utf8.display name)) cause
        ∧ fault = .description (infoPath directory (Utf8.display name)) cause := by
  rw [describe, map_eq_error_iff, readInfo]
  simp only [← FileSystem.readText_eq_error_iff]
  cases files.isFile (infoPath directory (Utf8.display name)) with
  | false => simp
  | true =>
    cases files.readText (infoPath directory (Utf8.display name)) with
    | error cause => simp [eq_comm]
    | ok text => simp

theorem describe_eq_ok_iff : describe files directory name = .ok track ↔
    ∃ info, readInfo files directory (Utf8.display name) = .ok info
      ∧ track = ⟨0, Utf8.display name, .file (Path.join directory name), info⟩ := by
  rw [describe, map_eq_ok_iff]
  simp only [eq_comm]

/-- **A scan succeeds exactly if the directory is listed and each of its tracks is described**; they
are the catalog, numbered by their place. -/
theorem scan_eq_ok_iff : scan files directory = .ok catalog ↔
    ∃ names tracks, files.readDirectory directory = .ok names
      ∧ List.Forall₂ (fun name track => describe files directory name = .ok track)
        (trackNames files directory names) tracks
      ∧ ofTracks tracks = catalog := by
  rw [scan]
  cases files.readDirectory directory with
  | error cause => simp
  | ok names => simp [collect, map_eq_ok_iff, mapM_eq_ok_iff]

/-- **The track of a file name at a place**: numbered by it, shown under the displayed name, read
from that file, and described as the displayed name is. -/
structure TrackAt (files : FileSystem) (directory : Path) (place : Nat) (name : FileName)
    (track : Track) : Prop where
  id : track.id = place
  shown : track.name = Utf8.display name
  source : track.source = .file (Path.join directory name)
  info : readInfo files directory (Utf8.display name) = .ok track.info

/-- **A scanned catalog holds the track of every track name**, each at its place. -/
theorem trackAt_of_scan (h : scan files directory = .ok catalog) :
    ∃ names, files.readDirectory directory = .ok names
      ∧ catalog.size = (trackNames files directory names).length
      ∧ ∀ place track, catalog.get? place = some track →
        ∃ name, (trackNames files directory names)[place]? = some name
          ∧ TrackAt files directory place name track := by
  obtain ⟨names, tracks, hnames, hall, rfl⟩ := scan_eq_ok_iff.1 h
  obtain ⟨hlength, hget⟩ := List.forall₂_iff_get.1 hall
  refine ⟨names, hnames, (size_ofTracks tracks).trans hlength.symm, fun place track htrack => ?_⟩
  rw [get?_ofTracks, Option.map_eq_some_iff] at htrack
  obtain ⟨plain, hplain, rfl⟩ := htrack
  obtain ⟨hlt, rfl⟩ := List.getElem?_eq_some_iff.1 hplain
  have hlt' : place < (trackNames files directory names).length := hlength ▸ hlt
  obtain ⟨info, hinfo, heq⟩ := describe_eq_ok_iff.1 (hget place hlt' hlt)
  rw [List.get_eq_getElem, List.get_eq_getElem] at heq
  rw [heq]
  exact ⟨_, List.getElem?_eq_getElem hlt', rfl, rfl, rfl, hinfo⟩

end Catalog

end TrackServer
