/-!
# Text/Ascii — bytes read as ASCII text

A request is a line of ASCII bytes.  This module names the bytes that matter (`newline`, `isBlank`,
`isAscii`), folds letters to one case (`sameLetters`), and cuts a line into its words at runs of
blanks (`words`), as any text is cut at some of its bytes (`runs`).

* `not_cut_of_mem_runs`: no run holds a byte that the text was cut at.
-/

namespace TrackServer.Ascii

/-- The bytes of a text in UTF-8; of an ASCII text, one byte a character. -/
def bytes (text : String) : List UInt8 :=
  text.toByteArray.data.toList

theorem bytes_append (text more : String) : bytes (text ++ more) = bytes text ++ bytes more := by
  simp [bytes]

/-- The line terminator. -/
def newline : UInt8 := 0x0A

/-- The blanks: space, tab, newline, form feed and carriage return.  The vertical tab is none. -/
def isBlank (b : UInt8) : Bool :=
  b == 0x20 || b == 0x09 || b == newline || b == 0x0C || b == 0x0D

/-- The seven-bit bytes. -/
def isAscii (b : UInt8) : Bool :=
  b < 0x80

/-- A capital letter as its small one, every other byte as it is. -/
def fold (b : UInt8) : UInt8 :=
  if 0x41 ≤ b ∧ b ≤ 0x5A then b + 0x20 else b

/-- **Equality up to the case of ASCII letters.** -/
def sameLetters (u v : List UInt8) : Bool :=
  u.map fold == v.map fold

/-! ## Runs

A text cut at some of its bytes falls into runs; a run is never empty, so neighbouring cuts count as
one and cuts at either end as none. -/

section Runs

variable (cut : UInt8 → Bool)

/-- Put a byte in front of the first run. -/
def growFirst (b : UInt8) : List (List UInt8) → List (List UInt8)
  | [] => [[b]]
  | run :: more => (b :: run) :: more

/-- The runs with one more byte in front, and whether the text now starts inside a run. -/
def addFront (b : UInt8) (found : List (List UInt8) × Bool) : List (List UInt8) × Bool :=
  if cut b then (found.1, false)
  else if found.2 then (growFirst b found.1, true)
  else ([b] :: found.1, true)

/-- **The runs of a text**: its maximal stretches of bytes that are no cuts, in order. -/
def runs (text : List UInt8) : List (List UInt8) :=
  (text.foldr (addFront cut) ([], false)).1

variable {cut}

/-- A property of bytes that are no cuts, and of runs that grow by them, holds of every run. -/
theorem forall_runs {P : List UInt8 → Prop} (one : ∀ b, cut b = false → P [b])
    (grow : ∀ b run, cut b = false → P run → P (b :: run)) (text : List UInt8) :
    ∀ run ∈ runs cut text, P run := by
  unfold runs
  induction text with
  | nil => simp
  | cons b rest ih =>
    rw [List.foldr_cons]
    generalize rest.foldr (addFront cut) ([], false) = found at ih ⊢
    unfold addFront
    split
    · exact ih
    · next hb =>
      have hb : cut b = false := by simpa using hb
      split
      · cases hf : found.1 with
        | nil => simpa [growFirst] using one b hb
        | cons run more =>
          rw [hf] at ih
          simp only [growFirst, List.mem_cons, forall_eq_or_imp] at ih ⊢
          exact ⟨grow b run hb ih.1, ih.2⟩
      · simp only [List.mem_cons, forall_eq_or_imp]
        exact ⟨one b hb, ih⟩

/-- No run holds a cut. -/
theorem not_cut_of_mem_runs {text run : List UInt8} (h : run ∈ runs cut text) :
    ∀ b ∈ run, cut b = false :=
  forall_runs (P := fun run => ∀ b ∈ run, cut b = false)
    (fun _ hb => by simpa using hb) (fun _ _ hb hr => by simpa using ⟨hb, hr⟩) text run h

end Runs

/-- **The words of a line**: its runs between blanks. -/
def words (line : List UInt8) : List (List UInt8) :=
  runs isBlank line

end TrackServer.Ascii
