import Mathlib
import TrackServer.Proofs.Selection

/-!
# Proofs/ScanFaults — what makes a scan fail, and what does not

A scan fails if the directory is not listed, or the description of one of its tracks is a regular
file that holds no text (`Undescribable`); then the first such track, by the bytes of file names, is
the one that is reported (`Fails`).  Nothing else in a directory matters: as far as two file systems
have the same track files with the same descriptions (`SameTracks`), they give the same catalog or
the same fault.

* `accountable`: all this of every directory.
-/

namespace TrackServer.Catalog

variable {files others : FileSystem} {directory : Path} {name : FileName}
  {names : List FileName} {fault : ScanFault}

/-! ## Track files -/

/-- **A track file of a directory**: an entry that is a regular file, links followed, under the name
of a track.  What it holds, and whether it can be read, is left open.  Regular is what the look-up
of its path finds so; where that fails there is no track file. -/
structure TrackFile (files : FileSystem) (directory : Path) (name : FileName) : Prop where
  entry : files.HasEntry directory name
  regular : ∃ content, files.find (Path.join directory name) = .ok (.file content)
  named : NamesTrack name

theorem mem_trackNames_iff (h : files.Enumerates directory names) :
    name ∈ trackNames files directory names ↔ TrackFile files directory name := by
  rw [mem_trackNames, h.mem_iff, isFile_iff]
  exact ⟨fun ⟨entry, regular, named⟩ => ⟨entry, regular, named⟩,
    fun h => ⟨h.entry, h.regular, h.named⟩⟩

/-- The track files are those whose names a listing gives. -/
theorem trackFile_iff_of_listed {tracks : List FileName}
    (hnames : files.readDirectory directory = .ok names)
    (htracks : trackNames files directory names = tracks) :
    TrackFile files directory name ↔ name ∈ tracks := by
  rw [← htracks, mem_trackNames_iff (FileSystem.enumerates_of_readDirectory hnames)]

/-- **A track file that cannot be described**: the file of its displayed name and `.info` is a
regular one, links followed, and cannot be read as text. -/
structure Undescribable (files : FileSystem) (directory : Path) (name : FileName)
    (cause : FileFault) : Prop where
  track : TrackFile files directory name
  regular : ∃ content, files.find (infoPath directory (Utf8.display name)) = .ok (.file content)
  textless : files.Textless (infoPath directory (Utf8.display name)) cause

theorem undescribable_iff {cause : FileFault} (h : files.Enumerates directory names) :
    Undescribable files directory name cause ↔ name ∈ trackNames files directory names
      ∧ describe files directory name
        = .error (.description (infoPath directory (Utf8.display name)) cause) := by
  rw [mem_trackNames_iff h, describe_eq_error_iff, isFile_iff]
  constructor
  · rintro ⟨track, regular, textless⟩
    exact ⟨track, regular, cause, textless, rfl⟩
  · rintro ⟨track, regular, _, textless, heq⟩
    obtain rfl := (ScanFault.description.inj heq).2
    exact ⟨track, regular, textless⟩

/-! ## The reported fault -/

/-- **Why a scan of a directory fails.**  The directory does not open, or listing it breaks off; and
if it is listed, the description of the first track that cannot be described. -/
inductive Fails (files : FileSystem) (directory : Path) : ScanFault → Prop
  | unopened {cause : FileFault} (unlisted : files.readDirectory directory = .error cause)
    (shut : files.opens directory = false) : Fails files directory (.directory directory cause)
  | brokenOff {cause : FileFault} (unlisted : files.readDirectory directory = .error cause)
    (opened : files.opens directory = true) : Fails files directory (.listing directory cause)
  | undescribable {names : List FileName} {name : FileName} {cause : FileFault}
    (listed : files.readDirectory directory = .ok names)
    (broken : Undescribable files directory name cause)
    (first : ∀ other cause, Undescribable files directory other cause → name ≤ other) :
    Fails files directory (.description (infoPath directory (Utf8.display name)) cause)

/-- Tracks are described in the order of their names, so the first that cannot be is reported. -/
theorem collect_eq_error_iff (h : files.Enumerates directory names) :
    collect files directory names = .error fault ↔
      ∃ name cause, Undescribable files directory name cause
        ∧ (∀ other cause, Undescribable files directory other cause → name ≤ other)
        ∧ fault = .description (infoPath directory (Utf8.display name)) cause := by
  rw [collect, map_eq_error_iff, mapM_eq_error_iff_of_sorted (pairwise_trackNames names)]
  constructor
  · rintro ⟨name, hmem, hname, hleast⟩
    obtain ⟨-, cause, -, rfl⟩ := describe_eq_error_iff.1 hname
    refine ⟨name, cause, (undescribable_iff h).2 ⟨hmem, hname⟩, fun other _ hother => ?_, rfl⟩
    obtain ⟨hmem', hother⟩ := (undescribable_iff h).1 hother
    exact hleast other hmem' _ hother
  · rintro ⟨name, cause, hbroken, hfirst, rfl⟩
    obtain ⟨hmem, hname⟩ := (undescribable_iff h).1 hbroken
    refine ⟨name, hmem, hname, fun other hmem' fault hother => ?_⟩
    obtain ⟨-, cause', -, rfl⟩ := describe_eq_error_iff.1 hother
    exact hfirst other cause' ((undescribable_iff h).2 ⟨hmem', hother⟩)

theorem scan_eq_error_iff :
    scan files directory = .error fault ↔ Fails files directory fault := by
  rw [scan]
  cases hlisted : files.readDirectory directory with
  | error cause =>
    rw [Except.error.injEq, listingFault]
    constructor
    · rintro rfl
      cases hopens : files.opens directory with
      | false => exact .unopened hlisted hopens
      | true => exact .brokenOff hlisted hopens
    · rintro (⟨unlisted, shut⟩ | ⟨unlisted, opened⟩ | ⟨listed, -, -⟩)
      · rw [if_neg (Bool.not_eq_true _ ▸ shut), Except.error.inj (hlisted.symm.trans unlisted)]
      · rw [if_pos opened, Except.error.inj (hlisted.symm.trans unlisted)]
      · cases hlisted.symm.trans listed
  | ok names =>
    rw [collect_eq_error_iff (FileSystem.enumerates_of_readDirectory hlisted)]
    constructor
    · rintro ⟨name, cause, hbroken, hfirst, rfl⟩
      exact .undescribable hlisted hbroken hfirst
    · rintro (⟨unlisted, -⟩ | ⟨unlisted, -⟩ | ⟨-, hbroken, hfirst⟩)
      · cases hlisted.symm.trans unlisted
      · cases hlisted.symm.trans unlisted
      · exact ⟨_, _, hbroken, hfirst, rfl⟩

/-- **A scan fails for two reasons only**: no listing, or a track that cannot be described. -/
theorem exists_fault_iff :
    (∃ fault, scan files directory = .error fault) ↔
      (∀ names, files.readDirectory directory ≠ .ok names)
        ∨ ∃ name cause, Undescribable files directory name cause := by
  constructor
  · rintro ⟨fault, hfault⟩
    cases scan_eq_error_iff.1 hfault with
    | unopened unlisted => exact .inl fun names hlisted => nomatch unlisted.symm.trans hlisted
    | brokenOff unlisted => exact .inl fun names hlisted => nomatch unlisted.symm.trans hlisted
    | undescribable _ broken => exact .inr ⟨_, _, broken⟩
  · intro hreason
    cases hscan : scan files directory with
    | error fault => exact ⟨fault, rfl⟩
    | ok catalog =>
      obtain ⟨names, tracks, hlisted, hall, -⟩ := scan_eq_ok_iff.1 hscan
      obtain hnone | ⟨name, cause, hbroken⟩ := hreason
      · exact absurd hlisted (hnone names)
      · obtain ⟨hmem, hname⟩ := (undescribable_iff
          (FileSystem.enumerates_of_readDirectory hlisted)).1 hbroken
        obtain ⟨track, htrack⟩ := exists_ok_of_forall₂ hall name hmem
        cases htrack.symm.trans hname

/-! ## What else is in the directory -/

/-- **The same track files with the same descriptions**, in a directory that both file systems list.
All else may differ: other files, descriptions of no track, what tracks hold. -/
structure SameTracks (files others : FileSystem) (directory : Path) : Prop where
  listed : ∃ names, files.readDirectory directory = .ok names
  listed' : ∃ names, others.readDirectory directory = .ok names
  tracks : ∀ name, TrackFile files directory name ↔ TrackFile others directory name
  described : ∀ name, TrackFile files directory name →
    files.isFile (infoPath directory (Utf8.display name))
      = others.isFile (infoPath directory (Utf8.display name))
  content : ∀ name, TrackFile files directory name →
    files.isFile (infoPath directory (Utf8.display name)) = true →
      files.read (infoPath directory (Utf8.display name))
        = others.read (infoPath directory (Utf8.display name))

theorem SameTracks.describe_eq (h : SameTracks files others directory)
    (hname : TrackFile files directory name) :
    describe files directory name = describe others directory name := by
  rw [describe, describe, readInfo, readInfo, ← h.described name hname]
  cases hinfo : files.isFile (infoPath directory (Utf8.display name)) with
  | false => rfl
  | true => rw [FileSystem.readText, FileSystem.readText, h.content name hname hinfo]

/-- **Only track files and their descriptions matter.** -/
theorem SameTracks.scan_eq (h : SameTracks files others directory) :
    scan others directory = scan files directory := by
  obtain ⟨names, hnames⟩ := h.listed
  obtain ⟨names', hnames'⟩ := h.listed'
  have hlisted := FileSystem.enumerates_of_readDirectory hnames
  have hlisted' := FileSystem.enumerates_of_readDirectory hnames'
  have hsame : trackNames files directory names = trackNames others directory names' := by
    refine (strict_trackNames hlisted.nodup).eq_of_mem_iff (strict_trackNames hlisted'.nodup)
      fun name => ?_
    rw [mem_trackNames_iff hlisted, mem_trackNames_iff hlisted', h.tracks]
  rw [scan, scan, hnames, hnames']
  refine congrArg (Except.map ofTracks) ?_
  rw [← hsame]
  exact mapM_congr_left fun name hmem => (h.describe_eq ((mem_trackNames_iff hlisted).1 hmem)).symm

/-! ## Every scan is accounted for -/

/-- **A scan fails for the right reasons only.** -/
structure Accountable (files : FileSystem) (directory : Path) : Prop where
  /-- It fails exactly if there is a reason to… -/
  fails_iff : (∃ fault, scan files directory = .error fault) ↔
    (∀ names, files.readDirectory directory ≠ .ok names)
      ∨ ∃ name cause, Undescribable files directory name cause
  /-- …and the fault is the first there is… -/
  fault_iff : ∀ fault, scan files directory = .error fault ↔ Fails files directory fault
  /-- …in whichever order the directory is listed… -/
  anyOrder : ∀ names order, files.readDirectory directory = .ok names →
    files.Enumerates directory order → collect files directory order = scan files directory
  /-- …and whatever else there is, in the directory and in its tracks. -/
  onlyTracks : ∀ others : FileSystem, SameTracks files others directory →
    scan others directory = scan files directory

/-- **Every scan is accounted for.** -/
theorem accountable (files : FileSystem) (directory : Path) : Accountable files directory where
  fails_iff := exists_fault_iff
  fault_iff _ := scan_eq_error_iff
  anyOrder names order hnames horder := by
    have hlisted := FileSystem.enumerates_of_readDirectory hnames
    rw [← collect_eq_of_perm (hlisted.perm horder), scan, hnames]
  onlyTracks _ h := h.scan_eq

/-! ## A cluttered directory -/

/-- A description that nobody may read. -/
def secret : Entry :=
  .unreadable (.file ByteArray.empty) (.unopened .permissionDenied)

/-- A root directory with three tracks, none of them good: one cannot be read, the description of
one is no text, that of the third cannot be read.  Around them, what is no track and what describes
none. -/
def cluttered : FileSystem where
  entries :=
    [([Ascii.bytes "c.mp3.info"], secret),
      ([Ascii.bytes "c.mp3"], .file ByteArray.empty),
      ([Ascii.bytes "b.mp3.info"], .file ⟨#[0xFF]⟩),
      ([Ascii.bytes "b.mp3"], .file ByteArray.empty),
      ([Ascii.bytes "a.mp3.info"], .directory),
      ([Ascii.bytes "a.mp3"], .unreadable (.file ⟨#[0xFF]⟩) (.brokenOff .inputOutput)),
      ([Ascii.bytes "A.mp3.info"], .file ⟨#[0xFF]⟩),
      ([Ascii.bytes "sub.mp3"], .directory),
      ([Ascii.bytes "gone.mp3"], .link (Ascii.bytes "nowhere"))]
  current := []
  distinct := by decide +kernel

/-- The three tracks and the two descriptions alone, in another order. -/
def tidied : FileSystem where
  entries :=
    [([Ascii.bytes "a.mp3"], .file ByteArray.empty), ([Ascii.bytes "b.mp3"], .file ByteArray.empty),
      ([Ascii.bytes "c.mp3"], .file ByteArray.empty), ([Ascii.bytes "b.mp3.info"], .file ⟨#[0xFF]⟩),
      ([Ascii.bytes "c.mp3.info"], secret)]
  current := []
  distinct := by decide +kernel

/-- The names of the three tracks. -/
def clutteredTracks : List FileName :=
  [Ascii.bytes "a.mp3", Ascii.bytes "b.mp3", Ascii.bytes "c.mp3"]

theorem listed_cluttered :
    cluttered.readDirectory [Path.separator] = .ok (cluttered.namesIn []) := by
  cbv

theorem listed_tidied : tidied.readDirectory [Path.separator] = .ok (tidied.namesIn []) := by
  cbv

theorem trackFile_cluttered_iff :
    TrackFile cluttered [Path.separator] name ↔ name ∈ clutteredTracks :=
  trackFile_iff_of_listed listed_cluttered (by cbv)

theorem trackFile_tidied_iff :
    TrackFile tidied [Path.separator] name ↔ name ∈ clutteredTracks :=
  trackFile_iff_of_listed listed_tidied (by cbv)

theorem sameTracks_tidied : SameTracks cluttered tidied [Path.separator] where
  listed := ⟨_, listed_cluttered⟩
  listed' := ⟨_, listed_tidied⟩
  tracks _ := trackFile_cluttered_iff.trans trackFile_tidied_iff.symm
  described name h := by
    have hmem := trackFile_cluttered_iff.1 h
    simp only [clutteredTracks, List.mem_cons, List.not_mem_nil, or_false] at hmem
    obtain rfl | rfl | rfl := hmem <;> cbv
  content name h hfile := by
    have hmem := trackFile_cluttered_iff.1 h
    simp only [clutteredTracks, List.mem_cons, List.not_mem_nil, or_false] at hmem
    obtain rfl | rfl | rfl := hmem
    · -- What has the name of this description is a directory.
      have hnone : cluttered.isFile (infoPath [Path.separator]
          (Utf8.display (Ascii.bytes "a.mp3"))) = false := by cbv
      cases hnone.symm.trans hfile
    · cbv
    · cbv

/-- The description that is no text is reported, as its track comes before the one whose description
cannot be read; and the rest of the directory has no part in it. -/
theorem accountable_cluttered :
    Fails cluttered [Path.separator] (.description (Ascii.bytes "/b.mp3.info") .notText)
      ∧ scan tidied [Path.separator] = scan cluttered [Path.separator] := by
  have h := accountable cluttered [Path.separator]
  exact ⟨(h.fault_iff _).1 (by cbv), h.onlyTracks tidied sameTracks_tidied⟩

end TrackServer.Catalog
