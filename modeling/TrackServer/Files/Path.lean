import TrackServer.Text.Utf8

/-!
# Files/Path — paths and file names as bytes

A path is kept as it is written; `join` and `components` are the only ways into it.  A path that
ends in a separator asks for a directory, which `components` says with a final dot.

* `extension?_append`: a name that ends in a dot and dot-free bytes, with something before the dot,
  has those bytes as its extension.
-/

namespace TrackServer

/-- A path as it is written. -/
abbrev Path := List UInt8

/-- The name of one file in its directory. -/
abbrev FileName := List UInt8

namespace Path

/-- What parts the names of a path. -/
def separator : UInt8 := 0x2F

/-- The dot of file names. -/
def dot : UInt8 := 0x2E

/-- The name of the directory itself. -/
def here : FileName := [dot]

/-- The name of the directory above. -/
def above : FileName := [dot, dot]

/-- Whether the path starts at the root. -/
def isAbsolute (path : Path) : Bool :=
  path.head? == some separator

/-- The path of a name in a directory. -/
def join (directory : Path) (name : FileName) : Path :=
  if isAbsolute name then name
  else if directory = [] ∨ directory.getLast? = some separator then directory ++ name
  else directory ++ separator :: name

/-- The names along a path, outermost first. -/
def components (path : Path) : List FileName :=
  Ascii.runs (· == separator) path ++
    if path.getLast? = some separator then [here] else []

/-- How a path is shown to people. -/
def display (path : Path) : String :=
  Utf8.display path

end Path

namespace FileName

/-- The bytes after the last dot, when something stands before that dot. -/
def extension? (name : FileName) : Option (List UInt8) :=
  match name.reverse.dropWhile (· != Path.dot) with
  | [] => none
  | [_] => none
  | _ :: _ :: _ => some (name.reverse.takeWhile (· != Path.dot)).reverse

/-- **A name with a stem and a last dot has the bytes after it as its extension.** -/
theorem extension?_append {stem ending : List UInt8} (hs : stem ≠ []) (he : Path.dot ∉ ending) :
    extension? (stem ++ Path.dot :: ending) = some ending := by
  have hall : ∀ b ∈ ending.reverse, (b != Path.dot) = true := fun b hb => by
    simpa using fun h : b = Path.dot => he (h ▸ List.mem_reverse.1 hb)
  obtain ⟨c, cs, hc⟩ := List.exists_cons_of_ne_nil (mt List.reverse_eq_nil_iff.1 hs)
  simp only [extension?, List.reverse_append, List.reverse_cons, List.append_assoc,
    List.singleton_append, List.dropWhile_append_of_pos hall, List.takeWhile_append_of_pos hall]
  simp [hc]

end FileName

end TrackServer
