import Mathlib.Data.List.Nodup
import TrackServer.Files

/-!
# Proofs/Entries — what a directory lists

Every location has one entry, so the names in a directory are those under which it has an entry,
each of them once (`enumerates_of_readDirectory`); in which order, `Enumerates` leaves open.
-/

namespace TrackServer.FileSystem

variable {files : FileSystem} {path : Path} {location : Location} {name : FileName}
  {names others : List FileName}

/-- A path leads to a directory with an entry of that name. -/
def HasEntry (files : FileSystem) (path : Path) (name : FileName) : Prop :=
  ∃ location, files.locate path = .ok location
    ∧ (files.entry? (location ++ [name])).isSome = true

/-- **An order in which the names in a directory may be listed**: each of them once. -/
structure Enumerates (files : FileSystem) (path : Path) (names : List FileName) : Prop where
  nodup : names.Nodup
  mem_iff : ∀ name, name ∈ names ↔ files.HasEntry path name

/-- Two orders have the same names. -/
theorem Enumerates.perm (h : files.Enumerates path names) (h' : files.Enumerates path others) :
    names.Perm others :=
  (List.perm_ext_iff_of_nodup h.nodup h'.nodup).2 fun name =>
    (h.mem_iff name).trans (h'.mem_iff name).symm

/-- The name that a location has directly below another. -/
theorem name_below_iff {below : Location} :
    (if below.dropLast = location then below.getLast? else none) = some name
      ↔ below = location ++ [name] := by
  constructor
  · intro h
    split at h
    · next hlast => rw [← List.dropLast_append_getLast? name h, hlast]
    · cases h
  · rintro rfl
    rw [List.dropLast_concat, if_pos rfl, List.getLast?_concat]

theorem namesIn_eq (files : FileSystem) (location : Location) :
    files.namesIn location = (files.entries.map Prod.fst).filterMap fun below =>
      if below.dropLast = location then below.getLast? else none := by
  rw [List.filterMap_map]
  rfl

/-- The names in a directory are those under which it has an entry… -/
theorem mem_namesIn_iff :
    name ∈ files.namesIn location ↔ (files.entry? (location ++ [name])).isSome = true := by
  have hne : location ++ [name] ≠ [] := List.concat_ne_nil _ _
  rw [ entry?, Option.isSome_map, kept?, if_neg hne, isSome_lookup_iff, namesIn_eq,
    List.mem_filterMap]
  simp only [name_below_iff, exists_eq_right]

/-- …each of them once. -/
theorem nodup_namesIn (files : FileSystem) (location : Location) :
    (files.namesIn location).Nodup := by
  rw [namesIn_eq]
  refine files.distinct.filterMap fun below other name hbelow hother => ?_
  rw [name_below_iff.1 hbelow, name_below_iff.1 hother]

/-- **A directory is listed in one of its orders.** -/
theorem enumerates_of_readDirectory (hnames : files.readDirectory path = .ok names) :
    files.Enumerates path names := by
  rw [readDirectory] at hnames
  cases hl : files.locate path with
  | error => rw [hl] at hnames; cases hnames
  | ok location =>
    simp only [hl, Except.bind] at hnames
    split at hnames
    · cases hnames
    · obtain ⟨-, rfl⟩ := Entry.list_eq_ok_iff.1 hnames
      refine ⟨nodup_namesIn files location, fun name => mem_namesIn_iff.trans ⟨fun hentry =>
        ⟨location, hl, hentry⟩, ?_⟩⟩
      rintro ⟨there, hthere, hentry⟩
      rwa [Except.ok.inj (hl.symm.trans hthere)]

end TrackServer.FileSystem
