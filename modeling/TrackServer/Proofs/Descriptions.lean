import Mathlib
import TrackServer.Proofs.Display
import TrackServer.Proofs.Scanning

/-!
# Proofs/Descriptions — whose description a track carries

The description of a track is looked for beside its file, under the displayed name and a further
`.info` (`describes_sibling_shown`).  A name that is text is displayed as it stands, so such a track
carries the description of its own file and never that of another.  Any other name is displayed with
other bytes: what stands beside the file under its own name is then not looked at, and a file that
really has the displayed name shares its description with this one (`description_of_scan`).
-/

namespace TrackServer.Catalog

variable {files : FileSystem} {directory : Path} {name : FileName} {catalog : Catalog}

/-- The name of the file that describes a track file. -/
def sibling (name : FileName) : FileName :=
  name ++ infoEnding

/-- The name that a displayed file name has as a file name itself. -/
def shownAs (name : FileName) : FileName :=
  Ascii.bytes (Utf8.display name)

theorem sibling_inj {name other : FileName} : sibling other = sibling name ↔ other = name :=
  List.append_left_inj infoEnding

theorem shownAs_eq_iff : shownAs name = name ↔ Utf8.IsText name :=
  Utf8.bytes_display_eq_iff

/-- **A description is that of a file**: there is one exactly if there is a regular file there, and
it is the contents of it. -/
structure Describes (files : FileSystem) (path : Path) (info : Option String) : Prop where
  isSome : info.isSome = files.isFile path
  content : ∀ text, info = some text → files.read path = .ok text.toByteArray

/-- What is the description of one file is that of another exactly if both are there with the same
contents, or neither is. -/
theorem Describes.iff_of_describes {path other : Path} {info : Option String}
    (h : Describes files path info) : Describes files other info ↔
      files.isFile other = files.isFile path
        ∧ (files.isFile other = true → files.read other = files.read path) := by
  constructor
  · intro hother
    refine ⟨hother.isSome.symm.trans h.isSome, fun hfile => ?_⟩
    obtain ⟨text, htext⟩ := Option.isSome_iff_exists.1 (hother.isSome.trans hfile)
    rw [hother.content text htext, h.content text htext]
  · rintro ⟨hfile, hread⟩
    refine ⟨h.isSome.trans hfile.symm, fun text htext => ?_⟩
    have hsome : info.isSome = true := Option.isSome_iff_exists.2 ⟨text, htext⟩
    rw [hread (hfile.trans (h.isSome.symm.trans hsome)), h.content text htext]

/-- A track is described by the file beside it that has its displayed name. -/
theorem describes_sibling_shown {info : Option String}
    (h : readInfo files directory (Utf8.display name) = .ok info) :
    Describes files (Path.join directory (sibling (shownAs name))) info := by
  obtain ⟨hfile, text, htext, rfl⟩ | ⟨hfile, rfl⟩ := readInfo_eq_ok_iff.1 h
  · refine ⟨hfile.symm, ?_⟩
    rintro _ ⟨⟩
    exact FileSystem.readText_eq_ok_iff.1 htext
  · exact ⟨hfile.symm, fun _ hnone => nomatch hnone⟩

/-- **What describes the track of a file.**  The file beside it that has its displayed name
(`shown`); if the name is text, this is its own `.info` (`own`) and that of no other file (`alone`).
If it is not, the file that is read is the `.info` of another name (`foreign`), and the description
is that of the track only as far as the two files are alike (`agrees`). -/
structure DescribedAsShown (files : FileSystem) (directory : Path) (name : FileName)
    (track : Track) : Prop where
  source : track.source = .file (Path.join directory name)
  shown : Describes files (Path.join directory (sibling (shownAs name))) track.info
  own : Utf8.IsText name → Describes files (Path.join directory (sibling name)) track.info
  alone : Utf8.IsText name → ∀ other, other ≠ name → sibling other ≠ sibling (shownAs name)
  foreign : ¬ Utf8.IsText name → sibling (shownAs name) ≠ sibling name
  agrees : Describes files (Path.join directory (sibling name)) track.info ↔
    files.isFile (Path.join directory (sibling name))
        = files.isFile (Path.join directory (sibling (shownAs name)))
      ∧ (files.isFile (Path.join directory (sibling name)) = true →
        files.read (Path.join directory (sibling name))
          = files.read (Path.join directory (sibling (shownAs name))))

theorem TrackAt.describedAsShown {place : Nat} {track : Track}
    (h : TrackAt files directory place name track) :
    DescribedAsShown files directory name track where
  source := h.source
  shown := describes_sibling_shown h.info
  own htext := by
    rw [← shownAs_eq_iff.2 htext]
    exact describes_sibling_shown h.info
  alone htext other hne := by
    rw [shownAs_eq_iff.2 htext]
    exact mt sibling_inj.1 hne
  foreign hbroken := mt (shownAs_eq_iff.1 ∘ sibling_inj.1) hbroken
  agrees := (describes_sibling_shown h.info).iff_of_describes

/-- **Every track of a scanned directory is described as it is displayed.** -/
theorem description_of_scan (h : scan files directory = .ok catalog) :
    ∃ names, files.readDirectory directory = .ok names
      ∧ catalog.size = (trackNames files directory names).length
      ∧ ∀ (place : Nat) (name : FileName) (track : Track),
          (trackNames files directory names)[place]? = some name →
          catalog.get? place = some track → DescribedAsShown files directory name track := by
  obtain ⟨names, hnames, hsize, hall⟩ := trackAt_of_scan h
  refine ⟨names, hnames, hsize, fun place name track hname htrack => ?_⟩
  obtain ⟨_, hname', hat⟩ := hall place track htrack
  obtain rfl := Option.some.inj (hname.symm.trans hname')
  exact hat.describedAsShown

/-! ## Two names displayed alike -/

/-- The name of a track that is no text. -/
def broken : FileName :=
  0xFF :: Ascii.bytes ".mp3"

/-- A root directory with a track whose name is no text, and a track that really has the name the
first is displayed under; each has a description beside it. -/
def displayedAlike : FileSystem where
  entries :=
    [([broken], .file ByteArray.empty), ([sibling broken], .file "own".toByteArray),
      ([shownAs broken], .file ByteArray.empty),
      ([sibling (shownAs broken)], .file "other".toByteArray)]
  current := []
  distinct := by decide +kernel

/-- Its tracks, in their order, and what describes them. -/
theorem scan_displayedAlike : scan displayedAlike [Path.separator] = .ok (ofTracks
    [⟨0, "\uFFFD.mp3", .file (Path.join [Path.separator] (shownAs broken)), some "other"⟩,
      ⟨0, "\uFFFD.mp3", .file (Path.join [Path.separator] broken), some "other"⟩]) := by
  cbv

/-- The track with the displayed name has its own description. -/
theorem description_of_scan_displayedAlike :
    ∃ catalog track, scan displayedAlike [Path.separator] = .ok catalog
      ∧ catalog.get? 0 = some track
      ∧ DescribedAsShown displayedAlike [Path.separator] (shownAs broken) track := by
  obtain ⟨names, hnames, hsize, hall⟩ := description_of_scan scan_displayedAlike
  have hnames' : displayedAlike.readDirectory [Path.separator]
      = .ok [broken, sibling broken, shownAs broken, sibling (shownAs broken)] := by
    cbv
  obtain rfl := Except.ok.inj (hnames.symm.trans hnames')
  exact ⟨_, _, scan_displayedAlike, rfl, hall 0 (shownAs broken) _ (by cbv) rfl⟩

/-- **The other track has it too**: the name of its file is not text, and the description beside
that file is not read. -/
theorem broken_name_described_by_other :
    ∃ catalog track names, displayedAlike.readDirectory [Path.separator] = .ok names
      ∧ scan displayedAlike [Path.separator] = .ok catalog
      ∧ trackNames displayedAlike [Path.separator] names = [shownAs broken, broken]
      ∧ catalog.get? 1 = some track
      ∧ track.source = .file (Path.join [Path.separator] broken)
      ∧ Describes displayedAlike (Path.join [Path.separator] (sibling (shownAs broken))) track.info
      ∧ ¬ Describes displayedAlike (Path.join [Path.separator] (sibling broken)) track.info := by
  refine ⟨_, _, _, by cbv, scan_displayedAlike, by cbv, rfl, rfl, ⟨by cbv, ?_⟩, fun h => ?_⟩
  · rintro _ ⟨⟩
    cbv
  · have hread := h.content "other" rfl
    have hown : displayedAlike.read (Path.join [Path.separator] (sibling broken))
        = .ok "own".toByteArray := by
      cbv
    have hsame := String.toByteArray_inj.1 (Except.ok.inj (hown.symm.trans hread))
    exact absurd hsame (by decide)

end TrackServer.Catalog
