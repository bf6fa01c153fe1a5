import TrackServer.Text.Ascii

/-!
# Proofs/Words — what a text is cut into

`Separated` says of words and a text, without reference to how they are found, that the text is
these words in order, with cuts before, between and after them.  The runs of a text are the only
words of which that holds (`runs_eq_iff`).

A text is cut byte by byte from its end, so all follows from what one more byte in front does to
the runs: a cut leaves them (`runs_cons_of_cut`), any other byte begins a run or grows the first
(`runs_cons_of_not_cut`).
-/

namespace TrackServer.Ascii

variable {cut : UInt8 → Bool} {b : UInt8} {text rest : List UInt8} {words : List (List UInt8)}

/-! ## One byte in front -/

/-- A text begins inside a run if its first byte is no cut. -/
def startsInside (cut : UInt8 → Bool) (text : List UInt8) : Bool :=
  text.head?.any fun b => !cut b

theorem foldr_addFront (cut : UInt8 → Bool) (text : List UInt8) :
    text.foldr (addFront cut) ([], false) = (runs cut text, startsInside cut text) := by
  refine Prod.ext rfl ?_
  cases text with
  | nil => rfl
  | cons b rest =>
    rw [List.foldr_cons, addFront, startsInside, List.head?_cons, Option.any_some]
    cases hb : cut b with
    | true => rfl
    | false =>
      rw [if_neg Bool.false_ne_true]
      split <;> rfl

theorem runs_nil : runs cut [] = [] := rfl

/-- A cut in front leaves the runs as they are… -/
theorem runs_cons_of_cut (hb : cut b = true) (rest : List UInt8) :
    runs cut (b :: rest) = runs cut rest := by
  rw [runs, List.foldr_cons, foldr_addFront, addFront, if_pos hb]

/-- …and any other byte begins a run, or grows the first. -/
theorem runs_cons_of_not_cut (hb : cut b = false) (rest : List UInt8) :
    runs cut (b :: rest)
      = if startsInside cut rest then growFirst b (runs cut rest) else [b] :: runs cut rest := by
  rw [runs, List.foldr_cons, foldr_addFront, addFront, hb, if_neg Bool.false_ne_true]
  split <;> rfl

/-! ## Separated words -/

/-- **Words separated by cuts**: the text is the words in order, each of them some bytes that are no
cuts, with any number of cuts in front of each and at the end, but at least one between two. -/
inductive Separated (cut : UInt8 → Bool) : List (List UInt8) → List UInt8 → Prop
  | nil {cuts : List UInt8} (hcuts : ∀ b ∈ cuts, cut b = true) : Separated cut [] cuts
  | cons (cuts word : List UInt8) {rest : List UInt8} {words : List (List UInt8)}
      (hcuts : ∀ b ∈ cuts, cut b = true) (nonempty : word ≠ [])
      (whole : ∀ b ∈ word, cut b = false) (ends : ∀ b ∈ rest.head?, cut b = true)
      (more : Separated cut words rest) : Separated cut (word :: words) (cuts ++ (word ++ rest))

namespace Separated

theorem cons_cut (h : Separated cut words text) (hb : cut b = true) :
    Separated cut words (b :: text) := by
  cases h with
  | nil hcuts => exact .nil (List.forall_mem_cons.2 ⟨hb, hcuts⟩)
  | cons cuts word hcuts nonempty whole ends more =>
    exact .cons (b :: cuts) word (List.forall_mem_cons.2 ⟨hb, hcuts⟩) nonempty whole ends more

/-- A text that begins inside a run begins with its first word. -/
theorem exists_of_startsInside (h : Separated cut words text)
    (hs : startsInside cut text = true) :
    ∃ word rest more, words = word :: more ∧ text = word ++ rest
      ∧ (∀ b ∈ word, cut b = false) ∧ (∀ b ∈ rest.head?, cut b = true)
      ∧ Separated cut more rest := by
  cases h with
  | nil hcuts =>
    cases text with
    | nil => cases hs
    | cons b rest =>
      rw [startsInside, List.head?_cons, Option.any_some, hcuts b List.mem_cons_self] at hs
      cases hs
  | @cons cuts word rest more hcuts nonempty whole ends hmore =>
    cases cuts with
    | nil => exact ⟨word, rest, more, rfl, rfl, whole, ends, hmore⟩
    | cons b front =>
      rw [startsInside, List.cons_append, List.head?_cons, Option.any_some,
        hcuts b List.mem_cons_self] at hs
      cases hs

/-- A word stands in the text as it is. -/
theorem isInfix (h : Separated cut words text) {word : List UInt8} (hw : word ∈ words) :
    word <:+: text := by
  induction h with
  | nil => cases hw
  | cons cuts first _ _ _ _ _ ih =>
    rcases List.mem_cons.1 hw with rfl | hw
    · exact List.infix_append' cuts word _
    · exact (ih hw).trans ((List.suffix_append first _).trans (List.suffix_append cuts _)).isInfix

end Separated

/-! ## The runs are the separated words -/

theorem separated_runs (cut : UInt8 → Bool) (text : List UInt8) :
    Separated cut (runs cut text) text := by
  induction text with
  | nil => exact .nil (List.forall_mem_nil _)
  | cons b rest ih =>
    cases hb : cut b with
    | true =>
      rw [runs_cons_of_cut hb]
      exact ih.cons_cut hb
    | false =>
      rw [runs_cons_of_not_cut hb]
      by_cases hs : startsInside cut rest = true
      · obtain ⟨word, tail, more, hruns, rfl, whole, ends, hmore⟩ := ih.exists_of_startsInside hs
        rw [if_pos hs, hruns]
        exact .cons [] (b :: word) (List.forall_mem_nil _) (List.cons_ne_nil b word)
          (List.forall_mem_cons.2 ⟨hb, whole⟩) ends hmore
      · rw [if_neg hs]
        have ends : ∀ c ∈ rest.head?, cut c = true := by
          intro c hc
          simpa [startsInside, Option.mem_def.1 hc] using hs
        exact .cons [] [b] (List.forall_mem_nil _) (List.cons_ne_nil b [])
          (List.forall_mem_singleton.2 hb) ends ih

theorem runs_append_of_cut {cuts : List UInt8} (h : ∀ b ∈ cuts, cut b = true)
    (text : List UInt8) : runs cut (cuts ++ text) = runs cut text := by
  induction cuts with
  | nil => rfl
  | cons b rest ih =>
    rw [List.forall_mem_cons] at h
    rw [List.cons_append, runs_cons_of_cut h.1, ih h.2]

/-- A word in front of the end of a text, or of a cut, is its first run. -/
theorem runs_append_of_not_cut {word : List UInt8} (nonempty : word ≠ [])
    (whole : ∀ b ∈ word, cut b = false) (ends : ∀ b ∈ rest.head?, cut b = true) :
    runs cut (word ++ rest) = word :: runs cut rest := by
  induction word with
  | nil => exact absurd rfl nonempty
  | cons b tail ih =>
    rw [List.forall_mem_cons] at whole
    rw [List.cons_append, runs_cons_of_not_cut whole.1]
    cases tail with
    | nil =>
      have hs : startsInside cut rest ≠ true := by
        cases rest with
        | nil => exact Bool.false_ne_true
        | cons c more => simp [startsInside, ends c rfl]
      exact if_neg hs
    | cons c more =>
      have hs : startsInside cut (c :: more ++ rest) = true := by
        simp [startsInside, whole.2 c List.mem_cons_self]
      rw [if_pos hs, ih (List.cons_ne_nil c more) whole.2, growFirst]

/-- **The runs of a text are exactly the words that are separated in it.** -/
theorem runs_eq_iff : runs cut text = words ↔ Separated cut words text := by
  constructor
  · rintro rfl
    exact separated_runs cut text
  · intro h
    induction h with
    | nil hcuts => simpa [runs_nil] using runs_append_of_cut hcuts []
    | cons _ _ hcuts nonempty whole ends _ ih =>
      rw [runs_append_of_cut hcuts, runs_append_of_not_cut nonempty whole ends, ih]

end TrackServer.Ascii
