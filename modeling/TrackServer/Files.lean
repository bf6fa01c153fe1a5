import TrackServer.Bytes
import TrackServer.Fault
import TrackServer.Files.Path

/-!
# Files — the files a server sees

A `FileSystem` is a finite map from locations, lists of names from the root, to entries: contents,
directories, symbolic links and devices.  No location is listed twice, and every change keeps it so.
`locate` follows a path through it as a kernel does: every name is looked up in a directory, links
are followed where they stand, and a budget bounds how many of them one path may cross.  Every
directory may be searched, so a path leads to what is there.

Reading is `read` for contents, `readText` for contents that must be text, and `readDirectory` for
the names in a directory, in no order that a caller may rely on.  An entry may be there and yet
`unreadable`; that shows when it is read, and not before.
-/

namespace TrackServer

/-- Why a file operation fails. -/
inductive FileFault
  | notFound
  | notADirectory
  | isADirectory
  | alreadyExists
  | tooManyLinks
  | nameTooLong
  | nulByte
  | permissionDenied
  | inputOutput
  | notText
  deriving DecidableEq, Repr

namespace FileFault

/-- The kind of a file fault. -/
def kind : FileFault → FaultKind
  | .notFound => .notFound
  | .notADirectory => .notADirectory
  | .isADirectory => .isADirectory
  | .alreadyExists => .alreadyExists
  | .tooManyLinks => .filesystemLoop
  | .nameTooLong => .invalidName
  | .nulByte => .invalidInput
  | .permissionDenied => .permissionDenied
  | .inputOutput => .uncategorized
  | .notText => .invalidData

/-- The wording of a file fault. -/
def message : FileFault → String
  | .notFound => "No such file or directory (os error 2)"
  | .notADirectory => "Not a directory (os error 20)"
  | .isADirectory => "Is a directory (os error 21)"
  | .alreadyExists => "File exists (os error 17)"
  | .tooManyLinks => "Too many levels of symbolic links (os error 40)"
  | .nameTooLong => "File name too long (os error 36)"
  | .nulByte => "file name contained an unexpected NUL byte"
  | .permissionDenied => "Permission denied (os error 13)"
  | .inputOutput => "Input/output error (os error 5)"
  | .notText => "stream did not contain valid UTF-8"

end FileFault

/-- How reading an entry fails: it does not open, or it opens and reading it breaks off. -/
inductive ReadFault
  | unopened (cause : FileFault)
  | brokenOff (cause : FileFault)
  deriving DecidableEq, Repr

/-- What made reading fail. -/
def ReadFault.cause : ReadFault → FileFault
  | .unopened cause => cause
  | .brokenOff cause => cause

/-- What a location holds. -/
inductive Entry
  | file (content : ByteArray)
  | directory
  | link (target : Path)
  /-- The null device: it reads as empty, and keeps nothing.  Devices that hold bytes or have no end
  are left out. -/
  | device
  /-- An entry that is there as any other, but cannot be read. -/
  | unreadable (entry : Entry) (fault : ReadFault)
  deriving DecidableEq

namespace Entry

/-- What an entry is, whether it can be read or not. -/
def shape : Entry → Entry
  | .unreadable entry _ => entry.shape
  | entry => entry

/-- Whether an entry is a directory that opens. -/
def opens : Entry → Bool
  | .directory => true
  | .unreadable entry (.brokenOff _) => entry.opens
  | _ => false

/-- The contents of an entry.  The null device has none. -/
def read : Entry → Except FileFault ByteArray
  | .file content => .ok content
  | .directory => .error .isADirectory
  | .link _ => .error .tooManyLinks
  | .device => .ok ByteArray.empty
  | .unreadable _ (.unopened cause) => .error cause
  | .unreadable entry (.brokenOff cause) => entry.read.bind fun _ => .error cause

/-- The names in an entry, which has to be a directory. -/
def list (names : List FileName) : Entry → Except FileFault (List FileName)
  | .directory => .ok names
  | .unreadable entry fault => (entry.list names).bind fun _ => .error fault.cause
  | _ => .error .notADirectory

/-- Only a directory that can be read is listed, and with all its names. -/
theorem list_eq_ok_iff {entry : Entry} {names found : List FileName} :
    entry.list names = .ok found ↔ entry = .directory ∧ found = names := by
  cases entry with
  | directory => simp [list, eq_comm]
  | unreadable entry fault => cases h : entry.list names <;> simp [list, h, Except.bind]
  | file | link | device => simp [list]

end Entry

/-- The names from the root down. -/
abbrev Location := List FileName

/-- Entries by location, each location once, and the directory that relative paths start from.  The
root is a directory without being listed. -/
structure FileSystem where
  entries : List (Location × Entry)
  current : Location
  distinct : (entries.map Prod.fst).Nodup

namespace FileSystem

/-- The longest name of a file. -/
def nameLimit : Nat := 255

/-- The longest path. -/
def pathLimit : Nat := 4095

/-- How many links one path may cross. -/
def linkLimit : Nat := 40

/-- Nothing but the root. -/
def empty : FileSystem :=
  ⟨[], [], .nil⟩

variable (files : FileSystem)

/-- The entry at a location as it is kept, links not followed. -/
def kept? (location : Location) : Option Entry :=
  if location = [] then some .directory else files.entries.lookup location

/-- What the entry at a location is, whether it can be read or not. -/
def entry? (location : Location) : Option Entry :=
  (files.kept? location).map Entry.shape

/-- Follow names from a location.  The last name may be missing; then its location is free. -/
def walk (links : Nat) (location : Location) : List FileName → Except FileFault Location
  | [] => .ok location
  | name :: rest =>
    if files.entry? location ≠ some .directory then .error .notADirectory
    else if name = Path.here then walk links location rest
    else if name = Path.above then walk links location.dropLast rest
    else if nameLimit < name.length then .error .nameTooLong
    else
      match files.entry? (location ++ [name]), links with
      | none, _ => if rest = [] then .ok (location ++ [name]) else .error .notFound
      | some (.link _), 0 => .error .tooManyLinks
      | some (.link target), links + 1 =>
        let base := if Path.isAbsolute target then [] else location
        walk links base (Path.components target ++ rest)
      | some _, links => walk links (location ++ [name]) rest
termination_by names => (links, names.length)

/-- **The location a path leads to.**  All of it but the last name is there. -/
def locate (path : Path) : Except FileFault Location :=
  if path = [] then .error .notFound
  else if 0 ∈ path then .error .nulByte
  else if pathLimit < path.length then .error .nameTooLong
  else
    files.walk linkLimit (if Path.isAbsolute path then [] else files.current) (Path.components path)

/-- The entry a path leads to as it is kept, links followed. -/
def keptAt (path : Path) : Except FileFault Entry :=
  (files.locate path).bind fun location =>
    match files.kept? location with
    | none => .error .notFound
    | some entry => .ok entry

/-- What the entry is that a path leads to, links followed. -/
def find (path : Path) : Except FileFault Entry :=
  (files.keptAt path).map Entry.shape

/-- Whether a path leads to a regular file, links followed.  The look-up may fail, and then it does
not. -/
def isFile (path : Path) : Bool :=
  match files.find path with
  | .ok (.file _) => true
  | _ => false

/-- Whether a path leads to a directory. -/
def isDirectory (path : Path) : Bool :=
  match files.find path with
  | .ok .directory => true
  | _ => false

/-- Whether a path leads to a directory that opens. -/
def opens (path : Path) : Bool :=
  match files.keptAt path with
  | .ok entry => entry.opens
  | .error _ => false

/-- The contents of a file. -/
def read (path : Path) : Except FileFault ByteArray :=
  (files.keptAt path).bind Entry.read

/-- The contents of a file that has to be text. -/
def readText (path : Path) : Except FileFault String :=
  (files.read path).bind fun content =>
    match String.fromUTF8? content with
    | none => .error .notText
    | some text => .ok text

/-- The names directly below a location. -/
def namesIn (location : Location) : List FileName :=
  files.entries.filterMap fun (l, _) => if l.dropLast = location then l.getLast? else none

/-- The names in a directory. -/
def readDirectory (path : Path) : Except FileFault (List FileName) :=
  (files.locate path).bind fun location =>
    match files.kept? location with
    | none => .error .notFound
    | some entry => entry.list (files.namesIn location)

/-! ## Changes -/

section Entries

variable {entries : List (Location × Entry)} {location : Location} {entry : Entry}

/-- A location is listed exactly if it has an entry. -/
theorem isSome_lookup_iff :
    (entries.lookup location).isSome = true ↔ location ∈ entries.map Prod.fst := by
  rw [List.lookup_isSome_iff, List.mem_map]
  refine exists_congr fun kept => and_congr_right fun _ => ?_
  rw [beq_iff_eq, eq_comm]

/-- Entries with that of a location set, at its place or, if it is new, at the end. -/
def setEntry (entries : List (Location × Entry)) (location : Location) (entry : Entry) :
    List (Location × Entry) :=
  if (entries.lookup location).isSome then
    entries.map fun (l, e) => if l = location then (l, entry) else (l, e)
  else entries ++ [(location, entry)]

theorem distinct_setEntry (h : (entries.map Prod.fst).Nodup) :
    ((setEntry entries location entry).map Prod.fst).Nodup := by
  unfold setEntry
  by_cases hl : (entries.lookup location).isSome = true
  · rw [if_pos hl, List.map_map, List.map_congr_left (g := Prod.fst)]
    · exact h
    · intro kept _
      exact (apply_ite Prod.fst (kept.1 = location) (kept.1, entry) kept).trans (ite_self kept.1)
  · rw [if_neg hl, List.map_append, List.nodup_append]
    refine ⟨h, List.nodup_cons.2 ⟨List.not_mem_nil, .nil⟩, fun l hmem other hother heq => ?_⟩
    obtain rfl := List.mem_singleton.1 hother
    exact hl (isSome_lookup_iff.2 (heq ▸ hmem))

end Entries

/-- Set the entry at a location. -/
def put (location : Location) (entry : Entry) : FileSystem :=
  { files with
    entries := setEntry files.entries location entry
    distinct := distinct_setEntry files.distinct }

/-- Write a file, a new one or one that is there, through links. -/
def write (path : Path) (content : ByteArray) : Except FileFault FileSystem :=
  (files.locate path).bind fun location =>
    match files.entry? location with
    | some .directory => .error .isADirectory
    | some .device => .ok files
    | _ => .ok (files.put location (.file content))

/-- The location of the last name of a path, a link there not followed. -/
def locateLast (path : Path) : Except FileFault Location :=
  match (Path.components path).getLast? with
  | none => .error .notFound
  | some name =>
    (files.walk linkLimit (if Path.isAbsolute path then [] else files.current)
      ((Path.components path).dropLast ++ [Path.here])).map (· ++ [name])

/-- Make a directory or a link where nothing is. -/
def create (path : Path) (entry : Entry) : Except FileFault FileSystem :=
  (files.locateLast path).bind fun location =>
    match files.entry? location with
    | none => .ok (files.put location entry)
    | some _ => .error .alreadyExists

/-- Remove what a path names, with all below it; a link is removed itself. -/
def remove (path : Path) : Except FileFault FileSystem :=
  (files.locateLast path).bind fun location =>
    match files.entry? location with
    | none => .error .notFound
    | some _ =>
      .ok { files with
        entries := files.entries.filter fun (l, _) => !location.isPrefixOf l
        distinct := (List.filter_sublist.map Prod.fst).nodup files.distinct }

end FileSystem

end TrackServer
