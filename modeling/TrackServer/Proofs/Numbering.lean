import TrackServer.Proofs.Grammar
import TrackServer.Proofs.Scanning
import TrackServer.Response.Resolve

/-!
# Proofs/Numbering — a number that is listed can be asked for

A catalog is made of given tracks or of a directory (`Made`), and either way its tracks are numbered
by their place.  So three things agree on numbers: the place, the number written in the listing, and
the number that a request with that text is parsed to (`parse_requestLine`).

* `ids_are_usable`: every machine word, asked for as it is listed, finds the track that is listed
  under it, or is refused if there is none.
-/

namespace TrackServer

/-! ## Requests with a written number -/

namespace Request

/-- The line that asks for a track by a keyword and its number written out. -/
def requestLine (keyword : String) (id : Nat) : List UInt8 :=
  Ascii.bytes (keyword ++ " " ++ toString id ++ "\n")

theorem requestLine_eq (keyword : String) (id : Nat) : requestLine keyword id
    = (Ascii.bytes keyword ++ 0x20 :: Ascii.bytes (toString id)) ++ [Ascii.newline] := by
  have hblank : Ascii.bytes " " = [0x20] := by decide
  have hend : Ascii.bytes "\n" = [Ascii.newline] := by decide
  rw [requestLine, Ascii.bytes_append, Ascii.bytes_append, Ascii.bytes_append, hblank, hend,
    List.append_assoc (Ascii.bytes keyword)]
  rfl

/-- Two words with one blank between. -/
theorem separated_pair {first second : List UInt8}
    (hfirst : first ≠ [] ∧ ∀ b ∈ first, Ascii.isBlank b = false)
    (hsecond : second ≠ [] ∧ ∀ b ∈ second, Ascii.isBlank b = false) :
    Ascii.Separated Ascii.isBlank [first, second] (first ++ 0x20 :: second) := by
  have hlast : Ascii.Separated Ascii.isBlank [second] ([0x20] ++ (second ++ [])) :=
    .cons [0x20] second (List.forall_mem_singleton.2 rfl) hsecond.1 hsecond.2 nofun
      (.nil (List.forall_mem_nil _))
  rw [List.append_nil] at hlast
  exact .cons [] first (List.forall_mem_nil _) hfirst.1 hfirst.2 (fun b hb => by cases hb; rfl)
    hlast

/-- The bytes from the digits to the capital letters. -/
theorem plain_of_le {b : UInt8} (h : 0x30 ≤ b ∧ b ≤ 0x5A) :
    Ascii.isBlank b = false ∧ b ≠ Ascii.newline ∧ b < 0x80 := by
  grind [Ascii.isBlank, Ascii.newline]

theorem plain_keyword (command : Command) : ∀ b ∈ Ascii.bytes command.keyword,
    Ascii.isBlank b = false ∧ b ≠ Ascii.newline ∧ b < 0x80 := fun b hb =>
  have hcapital := command.keyword_capital b hb
  plain_of_le ⟨UInt8.le_trans (by decide) hcapital.1, hcapital.2⟩

theorem plain_toString (id : Nat) : ∀ b ∈ Ascii.bytes (toString id),
    Ascii.isBlank b = false ∧ b ≠ Ascii.newline ∧ b < 0x80 := fun _ hb =>
  have hdigit := Decimal.isDigit_of_mem_toString hb
  plain_of_le ⟨hdigit.1, UInt8.le_trans hdigit.2 (by decide)⟩

/-- **A number written out is parsed as itself**, behind a keyword. -/
theorem parse_requestLine {command : Command} {request : Request} {id : Nat}
    (h : Phrase [Ascii.bytes command.keyword, Ascii.bytes (toString id)] request) :
    parse (requestLine command.keyword id)
      = .ok ⟨request, (requestLine command.keyword id).length⟩ := by
  have hkeyword : Ascii.bytes command.keyword ≠ [] := by cases command <;> decide
  have hseparated := separated_pair
    ⟨hkeyword, fun b hb => (plain_keyword command b hb).1⟩
    ⟨Decimal.bytes_toString_ne_nil id, fun b hb => (plain_toString id b hb).1⟩
  have hline : ∀ b ∈ Ascii.bytes command.keyword ++ 0x20 :: Ascii.bytes (toString id),
      b ≠ Ascii.newline ∧ b < 0x80 :=
    List.forall_mem_append.2 ⟨fun b hb => (plain_keyword command b hb).2,
      List.forall_mem_cons.2 ⟨by decide, fun b hb => (plain_toString id b hb).2⟩⟩
  rw [requestLine_eq]
  exact parse_eq_ok_iff.2 ⟨_, [], rfl, fun hmem => (hline _ hmem).1 rfl, List.length_append,
    fun b hb => (hline b hb).2, _, hseparated, h⟩

end Request

namespace Response

theorem toByteArray_bytes (text : String) : (Ascii.bytes text).toByteArray = text.toUTF8 := by
  apply ByteArray.ext
  apply Array.ext'
  simp [Ascii.bytes]

/-- A refusal as text. -/
theorem refuse_bytes (reason : String) :
    refuse (Ascii.bytes reason) = ⟨.error, ("ERR " ++ reason ++ "\n").toUTF8⟩ := by
  have hend : [Ascii.newline] = Ascii.bytes "\n" := by decide
  rw [refuse, refusalLine, hend, ← Ascii.bytes_append, ← Ascii.bytes_append, toByteArray_bytes]

end Response

namespace Catalog

variable {catalog : Catalog} {files : FileSystem} {tracks others : List Track}

/-! ## The two ways to make a catalog -/

/-- **A catalog that can come about**: of given tracks, or of a directory. -/
inductive Made : Catalog → Prop
  | ofTracks (tracks : List Track) : Made (ofTracks tracks)
  | ofDirectory {files : FileSystem} {directory : Path} {catalog : Catalog}
      (scanned : scan files directory = .ok catalog) : Made catalog

/-- Either way its tracks are numbered by their place. -/
theorem Made.exists_tracks (h : Made catalog) : ∃ tracks, catalog = Catalog.ofTracks tracks := by
  cases h with
  | ofTracks tracks => exact ⟨tracks, rfl⟩
  | ofDirectory scanned =>
    obtain ⟨-, tracks, -, -, rfl⟩ := scan_eq_ok_iff.1 scanned
    exact ⟨tracks, rfl⟩

theorem Made.id_eq (h : Made catalog) {id : Nat} {track : Track}
    (ht : catalog.get? id = some track) : track.id = id := by
  obtain ⟨tracks, rfl⟩ := h.exists_tracks
  rw [get?_ofTracks, Option.map_eq_some_iff] at ht
  obtain ⟨plain, -, rfl⟩ := ht
  rfl

/-- Two tracks that differ in their number at most. -/
def SameButId (track other : Track) : Prop :=
  ∃ id, other = track.renumber id

/-- **The numbers that tracks had before do not matter.** -/
theorem ofTracks_eq_of_sameButId (h : List.Forall₂ SameButId tracks others) :
    ofTracks tracks = ofTracks others := by
  obtain ⟨hlength, hget⟩ := List.forall₂_iff_get.1 h
  refine congrArg Catalog.mk (List.ext_getElem (by simpa using hlength) fun place hlt hlt' => ?_)
  rw [List.length_mapIdx] at hlt hlt'
  obtain ⟨id, hid⟩ := hget place hlt hlt'
  rw [List.get_eq_getElem, List.get_eq_getElem] at hid
  rw [List.getElem_mapIdx, List.getElem_mapIdx, hid]
  rfl

/-! ## A number asked for -/

/-- **A track that is found by a number**: it stands at that place and has that number, it is listed
there under it, and it is the one that both requests are answered from. -/
structure Found (catalog : Catalog) (files : FileSystem) (number : Nat) (track : Track) :
    Prop where
  place : catalog.tracks[number]? = some track
  id : track.id = number
  listed : catalog.listing = String.join ((catalog.tracks.take number).map Track.line)
    ++ (toString number ++ " " ++ track.name ++ "\n")
    ++ String.join ((catalog.tracks.drop (number + 1)).map Track.line)
  described : ∀ info, track.info = some info →
    catalog.respond files (.info number) = .ok info.toUTF8
  undescribed : track.info = none →
    catalog.respond files (.info number)
      = .ok ("No info available for " ++ track.name ++ "\n").toUTF8
  loaded : ∀ content, track.load files = .ok content →
    catalog.respond files (.play number) = .ok content
  unloaded : ∀ fault, track.load files = .error fault →
    catalog.respond files (.play number) = ⟨.error, "ERR unable to load track\n".toUTF8⟩

/-- What is said about the track that is found. -/
theorem about_of_some {id : Nat} {track : Track} (h : catalog.get? id = some track)
    (answer : Track → Response) : Response.about catalog id answer = answer track := by
  rw [Response.about, h]

theorem Made.found (h : Made catalog) (files : FileSystem) {id : Nat} {track : Track}
    (ht : catalog.get? id = some track) : Found catalog files id track where
  place := ht
  id := h.id_eq ht
  listed := by
    obtain ⟨hlt, hget⟩ := List.getElem?_eq_some_iff.1 ht
    have hsplit :
        catalog.tracks = catalog.tracks.take id ++ track :: catalog.tracks.drop (id + 1) := by
      rw [← hget, List.getElem_cons_drop, List.take_append_drop]
    rw [listing]
    conv_lhs => rw [hsplit]
    rw [List.map_append, List.map_cons, String.join_append, String.join_cons, Track.line,
      h.id_eq ht, ← String.append_assoc]
  described info hinfo := by
    rw [respond, about_of_some ht, Response.ofInfo, hinfo]
    rfl
  undescribed hinfo := by
    rw [respond, about_of_some ht, Response.ofInfo, hinfo]
    rfl
  loaded content hload := by
    rw [respond, about_of_some ht, Response.ofContent, hload]
  unloaded fault hload := by
    rw [respond, about_of_some ht, Response.ofContent, hload]
    exact Response.refuse_bytes "unable to load track"

/-- **A number that can be used as it is listed**: both requests for it are parsed to it; it is that
of a track exactly if it is below their count, and then finds it; else both are refused. -/
structure Usable (catalog : Catalog) (files : FileSystem) (number : Nat) : Prop where
  info : Request.parse (Request.requestLine "INFO" number)
    = .ok ⟨.info number, (Request.requestLine "INFO" number).length⟩
  play : Request.parse (Request.requestLine "PLAY" number)
    = .ok ⟨.play number, (Request.requestLine "PLAY" number).length⟩
  isSome_iff : (catalog.get? number).isSome = true ↔ number < catalog.size
  found : ∀ track, catalog.get? number = some track → Found catalog files number track
  unknown : catalog.size ≤ number → ∀ request ∈ [Request.info number, .play number],
    catalog.respond files request
      = ⟨.error, ("ERR no such track " ++ toString number ++ "\n").toUTF8⟩

theorem Made.usable (h : Made catalog) (files : FileSystem) {number : Nat}
    (bounded : number < 2 ^ 64) : Usable catalog files number where
  info := @Request.parse_requestLine .info _ _
    (.info (List.forall₂_same.2 fun _ _ => .inl rfl) (Decimal.numeral_toString number) bounded)
  play := @Request.parse_requestLine .play _ _
    (.play (List.forall₂_same.2 fun _ _ => .inl rfl) (Decimal.numeral_toString number) bounded)
  isSome_iff := by
    rw [get?, Option.isSome_iff_ne_none, ne_eq, List.getElem?_eq_none_iff, Nat.not_le]
    rfl
  found _ ht := h.found files ht
  unknown hsize := by
    have hnone : catalog.get? number = none := List.getElem?_eq_none hsize
    have hrefused : ∀ answer, Response.about catalog number answer
        = ⟨.error, ("ERR no such track " ++ toString number ++ "\n").toUTF8⟩ := by
      intro answer
      have hreason : "ERR " ++ ("no such track " ++ toString number)
          = "ERR no such track " ++ toString number := by
        rw [← String.append_assoc]
        rfl
      rw [Response.about, hnone, Response.noSuchTrack, Response.refuse_bytes, hreason]
    rw [List.forall_mem_cons, List.forall_mem_singleton]
    exact ⟨hrefused .ofInfo, hrefused (.ofContent files)⟩

/-- **Listed numbers are usable**, in every catalog that can come about and for every machine word;
and the numbers that given tracks had before do not matter. -/
theorem ids_are_usable :
    (∀ catalog, Made catalog → ∀ (files : FileSystem) (number : Nat), number < 2 ^ 64 →
        Usable catalog files number)
      ∧ ∀ tracks others, List.Forall₂ SameButId tracks others → ofTracks tracks = ofTracks others :=
  ⟨fun _ made files _ bounded => made.usable files bounded,
    fun _ _ same => ofTracks_eq_of_sameButId same⟩

/-- Two tracks that were both numbered 7. -/
def twoTracks : List Track :=
  [⟨7, "a", .memory ⟨#[1]⟩, none⟩, ⟨7, "b", .memory ⟨#[2]⟩, some "text"⟩]

/-- The second is found by its place, the greatest word finds none, and no number given matters. -/
theorem ids_are_usable_two_tracks :
    Usable (ofTracks twoTracks) .empty 1
      ∧ Usable (ofTracks twoTracks) .empty (2 ^ 64 - 1)
      ∧ ofTracks twoTracks = ofTracks (twoTracks.map (·.renumber 0)) :=
  ⟨ids_are_usable.1 _ (.ofTracks _) _ 1 (by decide),
    ids_are_usable.1 _ (.ofTracks _) _ (2 ^ 64 - 1) (by decide),
    ids_are_usable.2 _ _ (.cons ⟨0, rfl⟩ (.cons ⟨0, rfl⟩ .nil))⟩

end Catalog

end TrackServer
