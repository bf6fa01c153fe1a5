import Mathlib
import TrackServer.Proofs.Display
import TrackServer.Proofs.Scanning

/-!
# Proofs/Listing — the lines of a listing

A listing is the line of every track with a line break behind it, whatever the names are
(`listing_ofTracks`).  Whether these are its only line breaks is up to the names: a file name may
hold a line break, and a displayed name has those of the file name.  So the listing of a directory
is one line a track exactly if no track's file name has one, and then it can be read back
(`listing_of_scan`).
-/

namespace TrackServer

/-! ## Texts made of lines -/

/-- The text that lines make, each of them ended by a line break. -/
def ended (lines : List String) : String :=
  String.join (lines.map (· ++ "\n"))

/-- The number of line breaks in a text. -/
def breaks (text : String) : Nat :=
  text.toList.count '\n'

theorem breaks_append (text more : String) : breaks (text ++ more) = breaks text + breaks more := by
  rw [breaks, String.toList_append, List.count_append, breaks, breaks]

theorem breaks_eq_zero_iff {text : String} : breaks text = 0 ↔ '\n' ∉ text.toList :=
  List.count_eq_zero

theorem ended_cons (line : String) (lines : List String) :
    ended (line :: lines) = line ++ ("\n" ++ ended lines) := by
  rw [ended, List.map_cons, String.join_cons, String.append_assoc, ended]

/-- Lines give the line breaks that they have and one each. -/
theorem breaks_ended (lines : List String) :
    breaks (ended lines) = lines.length + breaks (String.join lines) := by
  induction lines with
  | nil => rfl
  | cons line rest ih =>
    have hone : breaks "\n" = 1 := rfl
    rw [ended_cons, breaks_append, breaks_append, ih, hone, List.length_cons, String.join_cons,
      breaks_append]
    omega

theorem breaks_join_eq_zero_iff {texts : List String} :
    breaks (String.join texts) = 0 ↔ ∀ text ∈ texts, breaks text = 0 := by
  simp only [breaks_eq_zero_iff, String.toList_join, List.mem_flatMap, not_exists, not_and]

/-- What is put before texts adds no line breaks if it has none. -/
theorem breaks_join_mapIdx {f : Nat → String → String}
    (hf : ∀ place text, breaks (f place text) = breaks text) (texts : List String) :
    breaks (String.join (texts.mapIdx f)) = breaks (String.join texts) := by
  induction texts generalizing f with
  | nil => rfl
  | cons text rest ih =>
    rw [List.mapIdx_cons, String.join_cons, breaks_append, hf, ih fun place => hf (place + 1),
      String.join_cons, breaks_append]

/-- The first line ends at the first line break. -/
theorem takeWhile_ended_cons {line : String} (h : breaks line = 0) (lines : List String) :
    (ended (line :: lines)).toList.takeWhile (· != '\n') = line.toList := by
  rw [ended_cons, String.toList_append, String.toList_append,
    List.takeWhile_append_of_pos fun c hc =>
      bne_iff_ne.2 (ne_of_mem_of_not_mem hc (breaks_eq_zero_iff.1 h))]
  exact List.append_nil _

theorem ended_cons_inj {line other : String} {lines others : List String} (h : breaks line = 0)
    (h' : breaks other = 0) (heq : ended (line :: lines) = ended (other :: others)) :
    line = other ∧ ended lines = ended others := by
  have hfirst : line = other := by
    rw [← String.toList_inj, ← takeWhile_ended_cons h lines, ← takeWhile_ended_cons h' others, heq]
  subst hfirst
  rw [ended_cons, ended_cons, String.append_right_inj, String.append_right_inj] at heq
  exact ⟨rfl, heq⟩

/-- **A text is made of lines**: it is these lines, each ended, and none of them has a line break of
its own. -/
structure IsLines (lines : List String) (text : String) : Prop where
  text_eq : text = ended lines
  unbroken : ∀ line ∈ lines, breaks line = 0

/-- A text has as many lines as line breaks. -/
theorem IsLines.length_eq {lines : List String} {text : String} (h : IsLines lines text) :
    lines.length = breaks text := by
  rw [h.text_eq, breaks_ended, breaks_join_eq_zero_iff.2 h.unbroken, Nat.add_zero]

/-- **A text is made of one list of lines at most.** -/
theorem IsLines.unique {lines others : List String} {text : String} (h : IsLines lines text)
    (h' : IsLines others text) : lines = others := by
  have hlength := h.length_eq.trans h'.length_eq.symm
  induction lines generalizing others text with
  | nil => exact (List.eq_nil_of_length_eq_zero hlength.symm).symm
  | cons line rest ih =>
    cases others with
    | nil => exact nomatch hlength
    | cons other others =>
      obtain ⟨hline, hrest⟩ := List.forall_mem_cons.1 h.unbroken
      obtain ⟨hother, hothers⟩ := List.forall_mem_cons.1 h'.unbroken
      obtain ⟨rfl, heq⟩ := ended_cons_inj hline hother (h.text_eq.symm.trans h'.text_eq)
      rw [ih ⟨rfl, hrest⟩ ⟨heq, hothers⟩ (Nat.succ.inj hlength)]

/-! ## Listings -/

namespace Catalog

variable {files : FileSystem} {directory : Path} {catalog : Catalog}

/-- What a listing says of tracks under these names: their places and their names. -/
def numbered (shown : List String) : List String :=
  shown.mapIdx fun place name => toString place ++ " " ++ name

/-- The names of the tracks, in their order. -/
def shownNames (catalog : Catalog) : List String :=
  catalog.tracks.map Track.name

/-- No number has a line break. -/
theorem breaks_toString (n : Nat) : breaks (toString n) = 0 := by
  refine breaks_eq_zero_iff.2 fun hmem => ?_
  rw [Nat.toString_eq_repr, Nat.toList_repr] at hmem
  exact absurd (Nat.isDigit_of_mem_toDigits (by decide) (by decide) hmem) (by decide)

/-- The line of a track has the line breaks of its name. -/
theorem breaks_line (place : Nat) (shown : String) :
    breaks (toString place ++ " " ++ shown) = breaks shown := by
  have hblank : breaks " " = 0 := rfl
  rw [breaks_append, breaks_append, breaks_toString, hblank, Nat.zero_add]

theorem numbered_inj {shown others : List String} :
    numbered shown = numbered others ↔ shown = others := by
  refine ⟨fun h => List.ext_getElem? fun place => ?_, congrArg numbered⟩
  have hplace : (numbered shown)[place]? = (numbered others)[place]? := by rw [h]
  rw [numbered, numbered, List.getElem?_mapIdx, List.getElem?_mapIdx] at hplace
  exact Option.map_injective (fun _ _ => (String.append_right_inj _).1) hplace

theorem shownNames_ofTracks (tracks : List Track) :
    (ofTracks tracks).shownNames = tracks.map Track.name := by
  apply List.ext_getElem?
  intro place
  simp [ofTracks, shownNames, Track.renumber, Function.comp_def]

/-- **The listing of numbered tracks**, whatever their names. -/
theorem listing_ofTracks (tracks : List Track) :
    (ofTracks tracks).listing = ended (numbered (ofTracks tracks).shownNames) := by
  refine congrArg String.join (List.ext_getElem? fun place => ?_)
  simp [ofTracks, shownNames, numbered, Track.line, Track.renumber, Function.comp_def]

/-! ## Listings of files -/

/-- **A catalog lists files**: its tracks have their displayed names in order, and its listing is
the line of every track, each ended. -/
structure Lists (catalog : Catalog) (names : List FileName) : Prop where
  shown : catalog.shownNames = names.map Utf8.display
  listing : catalog.listing = ended (numbered catalog.shownNames)

/-- File names without line breaks. -/
def Unbroken (names : List FileName) : Prop :=
  ∀ name ∈ names, Ascii.newline ∉ name

instance : DecidablePred Unbroken :=
  fun _ => inferInstanceAs (Decidable (∀ _ ∈ _, _))

variable {names : List FileName}

/-- Described files give tracks under their displayed names. -/
theorem map_name_of_describe {tracks : List Track}
    (h : List.Forall₂ (fun name track => describe files directory name = .ok track) names tracks) :
    tracks.map Track.name = names.map Utf8.display := by
  induction h with
  | nil => rfl
  | cons hdescribed _ ih =>
    obtain ⟨_, -, rfl⟩ := describe_eq_ok_iff.1 hdescribed
    rw [List.map_cons, List.map_cons, ih]

/-- A scanned catalog lists the files that are tracks. -/
theorem lists_of_scan (h : scan files directory = .ok catalog) :
    ∃ names, files.readDirectory directory = .ok names
      ∧ catalog.Lists (trackNames files directory names) := by
  obtain ⟨names, tracks, hnames, hall, rfl⟩ := scan_eq_ok_iff.1 h
  refine ⟨names, hnames, ?_, listing_ofTracks tracks⟩
  rw [shownNames_ofTracks, map_name_of_describe hall]

/-- The displayed names have the line breaks of the file names. -/
theorem breaks_join_display (names : List FileName) :
    breaks (String.join (names.map Utf8.display)) = names.flatten.count Ascii.newline := by
  induction names with
  | nil => rfl
  | cons name rest ih =>
    rw [List.map_cons, String.join_cons, breaks_append, ih, breaks, Utf8.count_display,
      List.flatten_cons, List.count_append]

/-- The line of every track has, together, the line breaks of the file names. -/
theorem Lists.breaks_numbered (h : catalog.Lists names) :
    breaks (String.join (numbered catalog.shownNames)) = names.flatten.count Ascii.newline := by
  rw [numbered, breaks_join_mapIdx breaks_line, h.shown, breaks_join_display]

/-- **A listing has a line break for every track, and those of the file names.** -/
theorem Lists.breaks_listing (h : catalog.Lists names) :
    breaks catalog.listing = catalog.size + names.flatten.count Ascii.newline := by
  have hlength : (numbered catalog.shownNames).length = catalog.size := by
    rw [numbered, List.length_mapIdx, shownNames, List.length_map, size]
  rw [h.listing, breaks_ended, h.breaks_numbered, hlength]

theorem unbroken_iff_count : Unbroken names ↔ names.flatten.count Ascii.newline = 0 := by
  rw [List.count_eq_zero, List.mem_flatten]
  exact ⟨fun h ⟨name, hname, hmem⟩ => h name hname hmem, fun h name hname hmem =>
    h ⟨name, hname, hmem⟩⟩

/-- **Unbroken file names are listed one a line.** -/
theorem Lists.isLines (h : catalog.Lists names) (hunbroken : Unbroken names) :
    IsLines (numbered catalog.shownNames) catalog.listing := by
  refine ⟨h.listing, breaks_join_eq_zero_iff.1 ?_⟩
  rw [h.breaks_numbered, unbroken_iff_count.1 hunbroken]

/-- The listing is one line a track exactly if no file name is broken. -/
theorem Lists.isLines_iff (h : catalog.Lists names) :
    (∃ lines, IsLines lines catalog.listing ∧ lines.length = catalog.size) ↔ Unbroken names := by
  constructor
  · rintro ⟨lines, hlines, hlength⟩
    have hbreaks := h.breaks_listing
    rw [← hlines.length_eq, hlength] at hbreaks
    exact unbroken_iff_count.2 (by omega)
  · intro hunbroken
    have hlines := h.isLines hunbroken
    refine ⟨_, hlines, ?_⟩
    rw [hlines.length_eq, h.breaks_listing, unbroken_iff_count.1 hunbroken, Nat.add_zero]

/-- **A listing of unbroken names tells them.** -/
theorem Lists.shownNames_inj {other : Catalog} {others : List FileName} (h : catalog.Lists names)
    (h' : other.Lists others) (hunbroken : Unbroken names) (hunbroken' : Unbroken others)
    (heq : catalog.listing = other.listing) : catalog.shownNames = other.shownNames :=
  numbered_inj.1 ((h.isLines hunbroken).unique (heq ▸ h'.isLines hunbroken'))

/-- **The listing of a directory** is the line of every track, in order and each ended.  It is one
line a track exactly if no file name of a track is broken; and directories whose file names are not
have one listing only if their tracks are shown under the same names. -/
theorem listing_of_scan (h : scan files directory = .ok catalog) :
    ∃ names, files.readDirectory directory = .ok names
      ∧ catalog.Lists (trackNames files directory names)
      ∧ breaks catalog.listing
        = catalog.size + (trackNames files directory names).flatten.count Ascii.newline
      ∧ ((∃ lines, IsLines lines catalog.listing ∧ lines.length = catalog.size) ↔
          Unbroken (trackNames files directory names))
      ∧ (Unbroken (trackNames files directory names) →
          IsLines (numbered catalog.shownNames) catalog.listing
            ∧ ∀ files' directory' catalog' names', scan files' directory' = .ok catalog' →
                files'.readDirectory directory' = .ok names' →
                Unbroken (trackNames files' directory' names') →
                catalog.shownNames ≠ catalog'.shownNames →
                  catalog.listing ≠ catalog'.listing) := by
  obtain ⟨names, hnames, hlists⟩ := lists_of_scan h
  refine ⟨names, hnames, hlists, hlists.breaks_listing, hlists.isLines_iff, fun hunbroken =>
    ⟨hlists.isLines hunbroken, fun files' directory' catalog' names' h' hnames' hunbroken' => ?_⟩⟩
  obtain ⟨_, hread, hlists'⟩ := lists_of_scan h'
  obtain rfl := Except.ok.inj (hnames'.symm.trans hread)
  exact mt (hlists.shownNames_inj hlists' hunbroken hunbroken')

/-! ## One listing, two directories -/

/-- A root directory with two tracks, listed last first. -/
def twoFiles : FileSystem where
  entries :=
    [([Ascii.bytes "b.mp3"], .file ByteArray.empty), ([Ascii.bytes "a.mp3"], .file ByteArray.empty)]
  current := []
  distinct := by decide +kernel

/-- A root directory with one track, whose name goes on in a second line as the line of another
would. -/
def brokenFile : FileSystem where
  entries := [([Ascii.bytes "a.mp3\n1 b.mp3"], .file ByteArray.empty)]
  current := []
  distinct := by decide +kernel

theorem scan_twoFiles : scan twoFiles [Path.separator] = .ok (ofTracks
    [⟨0, "a.mp3", .file (Ascii.bytes "/a.mp3"), none⟩,
      ⟨0, "b.mp3", .file (Ascii.bytes "/b.mp3"), none⟩]) := by
  cbv

theorem scan_brokenFile : scan brokenFile [Path.separator] = .ok (ofTracks
    [⟨0, "a.mp3\n1 b.mp3", .file (Ascii.bytes "/a.mp3\n1 b.mp3"), none⟩]) := by
  cbv

/-- The two tracks stand in two lines. -/
theorem listing_of_scan_twoFiles :
    ∃ catalog, scan twoFiles [Path.separator] = .ok catalog
      ∧ IsLines ["0 a.mp3", "1 b.mp3"] catalog.listing := by
  obtain ⟨names, hnames, -, -, -, hlines⟩ := listing_of_scan scan_twoFiles
  have hnames' : twoFiles.readDirectory [Path.separator]
      = .ok [Ascii.bytes "b.mp3", Ascii.bytes "a.mp3"] := by
    cbv
  obtain rfl := Except.ok.inj (hnames.symm.trans hnames')
  have hunbroken : Unbroken (trackNames twoFiles [Path.separator]
      [Ascii.bytes "b.mp3", Ascii.bytes "a.mp3"]) := by
    rw [show trackNames twoFiles [Path.separator] [Ascii.bytes "b.mp3", Ascii.bytes "a.mp3"]
      = [Ascii.bytes "a.mp3", Ascii.bytes "b.mp3"] by cbv]
    decide
  exact ⟨_, scan_twoFiles, (hlines hunbroken).1⟩

/-- **The one track stands in the same two lines.** -/
theorem broken_name_listed_as_two :
    ∃ catalog catalog', scan brokenFile [Path.separator] = .ok catalog
      ∧ scan twoFiles [Path.separator] = .ok catalog'
      ∧ catalog.shownNames ≠ catalog'.shownNames
      ∧ catalog.listing = catalog'.listing
      ∧ ¬ ∃ lines, IsLines lines catalog.listing ∧ lines.length = catalog.size := by
  refine ⟨_, _, scan_brokenFile, scan_twoFiles, by decide, by cbv, ?_⟩
  rintro ⟨lines, hlines, hlength⟩
  have hbreaks := hlines.length_eq.symm.trans hlength
  exact absurd hbreaks (by cbv)

end Catalog

end TrackServer
