import Mathlib
import TrackServer.Proofs.Entries
import TrackServer.Proofs.Scanning

/-!
# Proofs/Selection — which files are tracks, and in which order

A file name is that of a track (`NamesTrack`) if after its last dot, and something before it, there
is `mp3` in letters of either case; `namesTrack_iff` says so of the function that looks at the
extension.

The track names of a directory are picked from its listing and sorted.  What is picked depends on
the names listed only (`mem_trackNames`), and a sorted list on its members only, so no order of the
listing gives another catalog (`collect_eq_of_perm`).

* `tracks_of_scan`: the tracks of a scanned directory, one by one.
-/

namespace TrackServer

/-! ## Letters of either case -/

namespace Ascii

/-- A letter in capitals, and the same in small. -/
def CapitalOf (capital small : UInt8) : Prop :=
  (0x41 ≤ capital ∧ capital ≤ 0x5A) ∧ small = capital + 0x20

/-- **Texts that differ in the case of letters at most.** -/
def SameButCase (u v : List UInt8) : Prop :=
  List.Forall₂ (fun b c => b = c ∨ CapitalOf b c ∨ CapitalOf c b) u v

theorem fold_eq_iff {b c : UInt8} :
    fold b = fold c ↔ b = c ∨ CapitalOf b c ∨ CapitalOf c b := by
  grind [fold, CapitalOf]

theorem sameLetters_iff_sameButCase {u v : List UInt8} :
    sameLetters u v = true ↔ SameButCase u v := by
  rw [sameLetters, beq_iff_eq, ← List.forall₂_eq_eq_eq, List.forall₂_map_left_iff,
    List.forall₂_map_right_iff, SameButCase]
  simp only [fold_eq_iff]

end Ascii

/-! ## Names of tracks -/

/-- **The extension of a name** is what stands after its last dot, if something stands before. -/
theorem FileName.extension?_eq_some_iff {name : FileName} {ending : List UInt8} :
    extension? name = some ending ↔
      ∃ stem, stem ≠ [] ∧ name = stem ++ Path.dot :: ending ∧ Path.dot ∉ ending := by
  refine ⟨fun h => ?_, fun ⟨stem, hstem, hname, hending⟩ => hname ▸ extension?_append hstem hending⟩
  unfold extension? at h
  split at h
  · cases h
  · cases h
  · next first b stem hrest =>
    -- The name read backwards: the ending, its dot, and the stem.
    have hsplit := List.takeWhile_append_dropWhile (p := (· != Path.dot)) (l := name.reverse)
    have hdot := List.head?_dropWhile_not (· != Path.dot) name.reverse
    rw [hrest] at hsplit hdot
    have hfirst : first = Path.dot := by simpa using hdot
    refine ⟨(b :: stem).reverse, by simp, ?_, fun hmem => ?_⟩
    · rw [← List.reverse_reverse name, ← hsplit, ← Option.some.inj h, hfirst]
      simp
    · rw [← Option.some.inj h, List.mem_reverse] at hmem
      simpa using List.mem_takeWhile_imp hmem

namespace Catalog

variable {files : FileSystem} {directory : Path} {name : FileName} {names others : List FileName}
  {catalog : Catalog}

/-- **A name of a track**: something, a last dot, and `mp3` in letters of either case. -/
def NamesTrack (name : FileName) : Prop :=
  ∃ stem ending, stem ≠ [] ∧ name = stem ++ Path.dot :: ending ∧ Path.dot ∉ ending
    ∧ Ascii.SameButCase ending (Ascii.bytes "mp3")

theorem namesTrack_iff : namesTrack name = true ↔ NamesTrack name := by
  rw [namesTrack, Option.any_eq_true]
  constructor
  · rintro ⟨ending, hending, hsame⟩
    obtain ⟨stem, hstem, hname, hdot⟩ := FileName.extension?_eq_some_iff.1 hending
    exact ⟨stem, ending, hstem, hname, hdot, Ascii.sameLetters_iff_sameButCase.1 hsame⟩
  · rintro ⟨stem, ending, hstem, hname, hdot, hsame⟩
    exact ⟨ending, FileName.extension?_eq_some_iff.2 ⟨stem, hstem, hname, hdot⟩,
      Ascii.sameLetters_iff_sameButCase.2 hsame⟩

/-! ## Picked and sorted -/

theorem pairwise_trackNames (names : List FileName) :
    (trackNames files directory names).Pairwise (· ≤ ·) :=
  List.pairwise_mergeSort' (· ≤ ·) _

theorem mem_trackNames : name ∈ trackNames files directory names ↔
    name ∈ names ∧ files.isFile (Path.join directory name) = true ∧ NamesTrack name := by
  rw [trackNames, List.mem_mergeSort, List.mem_filter, isTrack, Bool.and_eq_true, namesTrack_iff]

/-- Names listed once are in strict order. -/
theorem strict_trackNames (h : names.Nodup) :
    (trackNames files directory names).Pairwise (· < ·) := by
  have hnodup : (trackNames files directory names).Nodup :=
    List.nodup_mergeSort.2 (h.filter (isTrack files directory))
  exact (pairwise_trackNames names).imp₂
    (fun _ _ hle hne => (List.le_iff_lt_or_eq.1 hle).resolve_right hne) hnodup

/-- **The order of a listing does not matter**, whether the scan succeeds or not. -/
theorem collect_eq_of_perm (h : names.Perm others) :
    collect files directory names = collect files directory others := by
  have hperm : (trackNames files directory names).Perm (trackNames files directory others) :=
    (List.mergeSort_perm _ _).trans ((h.filter _).trans (List.mergeSort_perm _ _).symm)
  have hsame : trackNames files directory names = trackNames files directory others :=
    hperm.eq_of_pairwise (fun _ _ _ _ => List.le_antisymm) (pairwise_trackNames names)
      (pairwise_trackNames others)
  rw [collect, collect, hsame]

/-! ## The tracks of a directory -/

/-- **The files that a catalog is made of**, in its order: all entries of the directory that are
regular files, links followed, under the name of a track; in strict byte order, so each of them
once; and each is the track at its place.  An entry whose look-up fails, as that of a dangling link
does, is no regular file. -/
structure MadeOf (files : FileSystem) (directory : Path) (selected : List FileName)
    (catalog : Catalog) : Prop where
  mem_iff : ∀ name, name ∈ selected ↔ files.HasEntry directory name
    ∧ (∃ content, files.find (Path.join directory name) = .ok (.file content)) ∧ NamesTrack name
  increasing : selected.Pairwise (· < ·)
  size : catalog.size = selected.length
  track : ∀ place name, selected[place]? = some name → ∃ track, catalog.get? place = some track
    ∧ track.id = place ∧ track.name = Utf8.display name
    ∧ track.source = .file (Path.join directory name)

theorem isFile_iff {path : Path} :
    files.isFile path = true ↔ ∃ content, files.find path = .ok (.file content) := by
  rw [FileSystem.isFile]
  split <;> simp_all

/-- The track at a place is that of the name there. -/
theorem track_of_scan (h : scan files directory = .ok catalog) :
    ∃ names, files.readDirectory directory = .ok names
      ∧ catalog.size = (trackNames files directory names).length
      ∧ ∀ place name, (trackNames files directory names)[place]? = some name →
        ∃ track, catalog.get? place = some track ∧ TrackAt files directory place name track := by
  obtain ⟨names, hnames, hsize, hall⟩ := trackAt_of_scan h
  refine ⟨names, hnames, hsize, fun place name hname => ?_⟩
  have hlt : place < catalog.tracks.length :=
    Nat.lt_of_lt_of_eq (List.getElem?_eq_some_iff.1 hname).1 hsize.symm
  have htrack : catalog.get? place = some catalog.tracks[place] := List.getElem?_eq_getElem hlt
  obtain ⟨name', hname', hat⟩ := hall place _ htrack
  obtain rfl := Option.some.inj (hname.symm.trans hname')
  exact ⟨_, htrack, hat⟩

/-- **The tracks of a scanned directory** are its track files in strict order, and no order in which
the directory may be listed gives another catalog. -/
theorem tracks_of_scan (h : scan files directory = .ok catalog) :
    (∃ selected, MadeOf files directory selected catalog)
      ∧ ∀ order, files.Enumerates directory order →
        collect files directory order = .ok catalog := by
  obtain ⟨names, hnames, hsize, hall⟩ := track_of_scan h
  have hlisted := FileSystem.enumerates_of_readDirectory hnames
  constructor
  · refine ⟨trackNames files directory names, ?_, strict_trackNames hlisted.nodup, hsize, ?_⟩
    · intro name
      rw [mem_trackNames, hlisted.mem_iff, isFile_iff]
    · intro place name hname
      obtain ⟨track, htrack, hat⟩ := hall place name hname
      exact ⟨track, htrack, hat.id, hat.shown, hat.source⟩
  · intro order horder
    rw [← collect_eq_of_perm (hlisted.perm horder), ← h, scan, hnames]

/-- A root directory in which names, kinds of files and links are mixed, listed in no order. -/
def mixedFiles : FileSystem where
  entries :=
    [([Ascii.bytes "b.mp3"], .file ByteArray.empty), ([Ascii.bytes ".mp3"], .file ByteArray.empty),
      ([Ascii.bytes "sub.mp3"], .directory), ([Ascii.bytes "z.Mp3"], .link (Ascii.bytes "b.mp3")),
      ([Ascii.bytes "..mp3"], .file ByteArray.empty),
      ([Ascii.bytes "B.MP3"], .file ByteArray.empty),
      ([Ascii.bytes "a.mp3.x"], .file ByteArray.empty)]
  current := []
  distinct := by decide +kernel

theorem scan_mixedFiles : scan mixedFiles [Path.separator] = .ok (ofTracks
    [⟨0, "..mp3", .file (Ascii.bytes "/..mp3"), none⟩,
      ⟨0, "B.MP3", .file (Ascii.bytes "/B.MP3"), none⟩,
      ⟨0, "b.mp3", .file (Ascii.bytes "/b.mp3"), none⟩,
      ⟨0, "z.Mp3", .file (Ascii.bytes "/z.Mp3"), none⟩]) := by
  cbv

/-- Four of its seven entries are tracks: two dots before the extension, a name in capitals, the
plain file, and the link to it. -/
theorem tracks_of_scan_mixedFiles :
    ∃ catalog selected, scan mixedFiles [Path.separator] = .ok catalog
      ∧ MadeOf mixedFiles [Path.separator] selected catalog ∧ selected.length = 4 := by
  obtain ⟨⟨selected, hmade⟩, -⟩ := tracks_of_scan scan_mixedFiles
  exact ⟨_, selected, scan_mixedFiles, hmade, hmade.size.symm.trans (by cbv)⟩

end Catalog

end TrackServer
