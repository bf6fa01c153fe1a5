import Mathlib.Data.List.Forall2
import TrackServer.Proofs.Numerals
import TrackServer.Proofs.Results
import TrackServer.Proofs.Words
import TrackServer.Request.Parser

/-!
# Proofs/Grammar — the lines that spell a request

The grammar of requests is given apart from the parser: a line spells a request (`Spells`) if the
words separated in it are a keyword, in any case of its letters, and for the two requests that name
a track a numeral below the bound of machine words (`Phrase`).

Each stage of the parser is matched with its part of the grammar: keywords
(`ofKeyword?_eq_some_iff`), track numbers (`trackOf_eq_ok_iff`), phrases (`ofWords_eq_ok_iff`),
lines (`ofLine_eq_ok_iff`).

* `parses_what_is_spelled`: the parser accepts exactly the buffers whose first line spells a
  request.
-/

namespace TrackServer

/-! ## Keywords -/

namespace Ascii

/-- **A word names a keyword** in capital letters: it has the same letters, each of them capital or
small. -/
def Names (word keyword : List UInt8) : Prop :=
  List.Forall₂ (fun b c => b = c ∨ b = c + 0x20) word keyword

/-- Two bytes fold alike, the second a capital letter, if the first is that letter in either
case. -/
theorem fold_eq_fold_iff {b c : UInt8} (hc : 0x41 ≤ c ∧ c ≤ 0x5A) :
    fold b = fold c ↔ b = c ∨ b = c + 0x20 := by
  grind [fold]

theorem sameLetters_iff {word keyword : List UInt8} (h : ∀ c ∈ keyword, 0x41 ≤ c ∧ c ≤ 0x5A) :
    sameLetters word keyword = true ↔ Names word keyword := by
  rw [sameLetters, beq_iff_eq, Names]
  induction keyword generalizing word with
  | nil => simp
  | cons c rest ih =>
    rw [List.forall_mem_cons] at h
    cases word with
    | nil => simp
    | cons b tail =>
      rw [List.map_cons, List.map_cons, List.cons.injEq, List.forall₂_cons,
        fold_eq_fold_iff h.1, ih h.2]

end Ascii

theorem Command.keyword_capital (command : Command) :
    ∀ c ∈ Ascii.bytes command.keyword, 0x41 ≤ c ∧ c ≤ 0x5A := by
  cases command <;> decide +kernel

/-- **A word names a command exactly when it is the keyword**, whatever the case of its letters. -/
theorem Command.ofKeyword?_eq_some_iff {word : List UInt8} {command : Command} :
    ofKeyword? word = some command ↔ Ascii.Names word (Ascii.bytes command.keyword) := by
  rw [← Ascii.sameLetters_iff command.keyword_capital]
  constructor
  · intro h
    rw [ofKeyword?] at h
    simpa only using List.find?_some h
  · intro h
    -- What is found depends on the folded word only, and that is the folded keyword.
    have hfold := beq_iff_eq.1 h
    unfold ofKeyword? Ascii.sameLetters
    rw [hfold]
    cases command <;> decide

namespace Request

/-! ## Phrases -/

/-- **The words that make a request.** -/
inductive Phrase : List (List UInt8) → Request → Prop
  | list {keyword : List UInt8} (named : Ascii.Names keyword (Ascii.bytes "LIST")) :
    Phrase [keyword] .list
  | info {keyword number : List UInt8} {track : Nat}
      (named : Ascii.Names keyword (Ascii.bytes "INFO")) (numeral : Decimal.Numeral number track)
      (bounded : track < 2 ^ 64) : Phrase [keyword, number] (.info track)
  | play {keyword number : List UInt8} {track : Nat}
      (named : Ascii.Names keyword (Ascii.bytes "PLAY")) (numeral : Decimal.Numeral number track)
      (bounded : track < 2 ^ 64) : Phrase [keyword, number] (.play track)

/-- **A line spells a request**: the words separated in it make the request. -/
def Spells (line : List UInt8) (request : Request) : Prop :=
  ∃ words, Ascii.Separated Ascii.isBlank words line ∧ Phrase words request

variable {line word : List UInt8} {words arguments : List (List UInt8)} {request : Request}

/-- A track number is one word, a numeral of a machine word. -/
theorem trackOf_eq_ok_iff {track : Nat} : trackOf arguments = .ok track ↔
    ∃ number, arguments = [number] ∧ Decimal.Numeral number track ∧ track < 2 ^ 64 := by
  have hbound : 2 ^ 64 = trackBound := rfl
  rw [hbound]
  cases arguments with
  | nil => simp [trackOf]
  | cons number rest =>
    rw [trackOf]
    cases hread : Decimal.read? trackBound number with
    | none =>
      refine iff_of_false (fun h => by cases h) ?_
      rintro ⟨number', heq, numeral⟩
      obtain ⟨rfl, -⟩ := List.cons.inj heq
      rw [Decimal.read?_eq_some_iff.2 numeral] at hread
      cases hread
    | some value =>
      have hnumeral := Decimal.read?_eq_some_iff.1 hread
      dsimp only
      constructor
      · intro h
        split at h
        · next hrest =>
          cases h
          exact ⟨number, by rw [hrest], hnumeral⟩
        · cases h
      · rintro ⟨number', heq, numeral⟩
        obtain ⟨rfl, rfl⟩ := List.cons.inj heq
        have := Decimal.read?_eq_some_iff.2 numeral
        rw [if_pos rfl, Option.some.inj (hread.symm.trans this)]

/-- So is what the two requests that name a track are read off. -/
theorem map_trackOf_eq_ok_iff {make : Nat → Request} :
    (trackOf arguments).map make = .ok request ↔
      ∃ number track, arguments = [number] ∧ Decimal.Numeral number track ∧ track < 2 ^ 64
        ∧ make track = request := by
  rw [map_eq_ok_iff]
  constructor
  · rintro ⟨track, htrack, hmake⟩
    obtain ⟨number, rfl, numeral, bounded⟩ := trackOf_eq_ok_iff.1 htrack
    exact ⟨number, track, rfl, numeral, bounded, hmake⟩
  · rintro ⟨number, track, rfl, numeral, bounded, hmake⟩
    exact ⟨track, trackOf_eq_ok_iff.2 ⟨number, rfl, numeral, bounded⟩, hmake⟩

/-- The first word names the command that the others are read for. -/
theorem ofWords_cons_eq_ok_iff : ofWords (word :: arguments) = .ok request ↔
    ∃ command, Ascii.Names word (Ascii.bytes command.keyword)
      ∧ ofCommand command arguments = .ok request := by
  rw [ofWords]
  cases hc : Command.ofKeyword? word with
  | none =>
    refine iff_of_false (fun h => by cases h) ?_
    rintro ⟨command, named, -⟩
    rw [Command.ofKeyword?_eq_some_iff.2 named] at hc
    cases hc
  | some found =>
    constructor
    · exact fun h => ⟨found, Command.ofKeyword?_eq_some_iff.1 hc, h⟩
    · rintro ⟨command, named, h⟩
      have hcommand := Command.ofKeyword?_eq_some_iff.2 named
      rwa [← Option.some.inj (hc.symm.trans hcommand)] at h

/-- **The words that are read as a request are those that make it.** -/
theorem ofWords_eq_ok_iff : ofWords words = .ok request ↔ Phrase words request := by
  constructor
  · intro h
    cases words with
    | nil => cases h
    | cons word arguments =>
      obtain ⟨command, named, h⟩ := ofWords_cons_eq_ok_iff.1 h
      cases command with
      | list =>
        cases arguments with
        | nil => cases h; exact .list named
        | cons => cases h
      | info =>
        obtain ⟨number, track, rfl, numeral, bounded, rfl⟩ := map_trackOf_eq_ok_iff.1 h
        exact .info named numeral bounded
      | play =>
        obtain ⟨number, track, rfl, numeral, bounded, rfl⟩ := map_trackOf_eq_ok_iff.1 h
        exact .play named numeral bounded
  · intro h
    cases h with
    | list named => exact ofWords_cons_eq_ok_iff.2 ⟨.list, named, rfl⟩
    | info named numeral bounded =>
      exact ofWords_cons_eq_ok_iff.2 ⟨.info, named,
        map_trackOf_eq_ok_iff.2 ⟨_, _, rfl, numeral, bounded, rfl⟩⟩
    | play named numeral bounded =>
      exact ofWords_cons_eq_ok_iff.2 ⟨.play, named,
        map_trackOf_eq_ok_iff.2 ⟨_, _, rfl, numeral, bounded, rfl⟩⟩

/-! ## Lines -/

theorem all_isAscii_iff : line.all Ascii.isAscii = true ↔ ∀ b ∈ line, b < 0x80 := by
  simp [Ascii.isAscii]

/-- **A line is read as a request exactly when it spells it** in ASCII. -/
theorem ofLine_eq_ok_iff :
    ofLine line = .ok request ↔ (∀ b ∈ line, b < 0x80) ∧ Spells line request := by
  have hwords : ofWords (Ascii.words line) = .ok request ↔ Spells line request := by
    rw [ofWords_eq_ok_iff, Spells]
    constructor
    · exact fun h => ⟨_, Ascii.separated_runs _ line, h⟩
    · rintro ⟨words, hcut, h⟩
      rwa [Ascii.words, Ascii.runs_eq_iff.2 hcut]
  rw [ofLine]
  split
  · next h => rw [hwords, ← all_isAscii_iff, h]; simp
  · next h => simp [← all_isAscii_iff, h]

/-! ## Buffers -/

/-- **A buffer is parsed as a request exactly when its first line spells it** in ASCII. -/
theorem parse_eq_ok_iff {buffer : List UInt8} {consumed : Nat} :
    parse buffer = .ok ⟨request, consumed⟩ ↔ ∃ line rest, buffer = line ++ Ascii.newline :: rest
      ∧ Ascii.newline ∉ line ∧ consumed = line.length + 1 ∧ (∀ b ∈ line, b < 0x80)
      ∧ Spells line request := by
  constructor
  · intro h
    cases hl : firstLine? buffer with
    | none =>
      rw [parse, hl] at h
      cases h
    | some line =>
      rw [parse, hl] at h
      obtain ⟨request', hrequest, heq⟩ := map_eq_ok_iff.1 h
      obtain ⟨rfl, rfl⟩ := Parsed.mk.inj heq
      obtain ⟨hnewline, rest, hbuffer⟩ := firstLine?_eq_some_iff.1 hl
      obtain ⟨hascii, hspells⟩ := ofLine_eq_ok_iff.1 hrequest
      exact ⟨line, rest, hbuffer, hnewline, rfl, hascii, hspells⟩
  · rintro ⟨line, rest, rfl, hnewline, rfl, hascii, hspells⟩
    rw [parse, firstLine?_append_newline hnewline]
    exact map_eq_ok_iff.2 ⟨request, ofLine_eq_ok_iff.2 ⟨hascii, hspells⟩, rfl⟩

/-- A line and its terminator in front of a buffer, told by the position behind them. -/
theorem exists_line_iff {buffer line : List UInt8} {consumed : Nat} :
    (∃ rest, buffer = line ++ Ascii.newline :: rest) ∧ consumed = line.length + 1 ↔
      0 < consumed ∧ buffer[consumed - 1]? = some Ascii.newline
        ∧ line = buffer.take (consumed - 1) := by
  constructor
  · rintro ⟨⟨rest, rfl⟩, rfl⟩
    simp
  · rintro ⟨hpos, hget, rfl⟩
    obtain ⟨hlt, hnewline⟩ := List.getElem?_eq_some_iff.1 hget
    refine ⟨⟨buffer.drop consumed, ?_⟩, ?_⟩
    · conv_lhs => rw [← List.take_append_drop (consumed - 1) buffer,
        List.drop_eq_getElem_cons hlt, hnewline, Nat.sub_add_cancel hpos]
    · rw [List.length_take, Nat.min_eq_left (Nat.le_of_lt hlt), Nat.sub_add_cancel hpos]

/-- **The parser accepts exactly what is spelled.**  It takes so many bytes for a request exactly if
they end with the first line terminator of the buffer and those before it spell the request in
ASCII.  So a request is read off every line that spells it, whatever follows. -/
theorem parses_what_is_spelled :
    (∀ (buffer : List UInt8) (request : Request) (consumed : Nat),
      parse buffer = .ok ⟨request, consumed⟩ ↔
        0 < consumed ∧ buffer[consumed - 1]? = some Ascii.newline
          ∧ Ascii.newline ∉ buffer.take (consumed - 1)
          ∧ (∀ b ∈ buffer.take (consumed - 1), b < 0x80)
          ∧ Spells (buffer.take (consumed - 1)) request)
      ∧ ∀ (line : List UInt8) (request : Request), Ascii.newline ∉ line → (∀ b ∈ line, b < 0x80) →
        Spells line request → ∀ rest,
          parse (line ++ Ascii.newline :: rest) = .ok ⟨request, line.length + 1⟩ := by
  refine ⟨fun buffer request consumed => ?_, fun line request hnewline hascii hspells rest => ?_⟩
  · rw [parse_eq_ok_iff]
    constructor
    · rintro ⟨line, rest, hbuffer, hnewline, hconsumed, hascii, hspells⟩
      obtain ⟨hpos, hget, rfl⟩ := exists_line_iff.1 ⟨⟨rest, hbuffer⟩, hconsumed⟩
      exact ⟨hpos, hget, hnewline, hascii, hspells⟩
    · rintro ⟨hpos, hget, hnewline, hascii, hspells⟩
      obtain ⟨⟨rest, hbuffer⟩, hconsumed⟩ := exists_line_iff.2 ⟨hpos, hget, rfl⟩
      exact ⟨_, rest, hbuffer, hnewline, hconsumed, hascii, hspells⟩
  · exact parse_eq_ok_iff.2 ⟨line, rest, rfl, hnewline, rfl, hascii, hspells⟩

/-- Blanks around the words, letters of either case, a sign and zeros in front: the track is 7. -/
theorem parses_what_is_spelled_play :
    Spells (Ascii.bytes "\tpLaY  +007\r") (.play 7)
      ∧ parse (Ascii.bytes "\tpLaY  +007\r" ++ Ascii.newline :: Ascii.bytes "PLAY 8\n")
        = .ok ⟨.play 7, 13⟩ := by
  have hspells : Spells (Ascii.bytes "\tpLaY  +007\r") (.play 7) :=
    ⟨[Ascii.bytes "pLaY", Ascii.bytes "+007"], Ascii.runs_eq_iff.1 (by decide +kernel),
      .play ((Ascii.sameLetters_iff (Command.keyword_capital .play)).1 (by decide +kernel))
        (Decimal.numeral_iff.2 (by decide +kernel)) (by decide +kernel)⟩
  exact ⟨hspells, parses_what_is_spelled.2 _ _ (by decide +kernel) (by decide +kernel) hspells _⟩

end Request

end TrackServer
