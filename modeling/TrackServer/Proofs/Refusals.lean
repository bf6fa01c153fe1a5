import TrackServer.Proofs.Grammar
import TrackServer.Proofs.Receiving

/-!
# Proofs/Refusals — which fault a line is refused for

A line may have several faults at once: a byte that is not ASCII in an unknown word, a broken number
with words too many behind it.  `Refused` says of each fault when it is the first, apart from the
parser and in terms of the words separated in the line.

Each stage of the parser is matched with its part of that: numbers (`trackOf_eq_error_iff`), words
(`ofWords_eq_error_iff`), lines (`ofLine_eq_error_iff`), buffers (`parse_eq_error_iff`).

* `refused_for_first_fault`: what each fault of a refused line means, one by one.
-/

namespace TrackServer.Request

variable {buffer line rest word : List UInt8} {words arguments : List (List UInt8)}
  {fault : ParseError}

/-! ## The first fault -/

/-- A word that names none of the keywords. -/
def NamesNone (word : List UInt8) : Prop :=
  ∀ command : Command, ¬ Ascii.Names word (Ascii.bytes command.keyword)

/-- A word that names one of the two keywords a track number follows. -/
def NamesNumbered (word : List UInt8) : Prop :=
  Ascii.Names word (Ascii.bytes "INFO") ∨ Ascii.Names word (Ascii.bytes "PLAY")

/-- A word that spells a track number. -/
def IsTrackNumber (word : List UInt8) : Prop :=
  ∃ track, Decimal.Numeral word track ∧ track < 2 ^ 64

/-- **The first fault of the words where one track number should be.** -/
inductive Misnumbered : List (List UInt8) → ParseError → Prop
  | missing : Misnumbered [] .missingTrack
  | invalid {word : List UInt8} {rest : List (List UInt8)} (unread : ¬ IsTrackNumber word) :
    Misnumbered (word :: rest) (.invalidTrack word)
  | trailing {word more : List UInt8} {rest : List (List UInt8)} (read : IsTrackNumber word) :
    Misnumbered (word :: more :: rest) .trailingArguments

/-- **The first fault of the words of a line.** -/
inductive Faulty : List (List UInt8) → ParseError → Prop
  | empty : Faulty [] .empty
  | unknown {word : List UInt8} {arguments : List (List UInt8)} (unnamed : NamesNone word) :
    Faulty (word :: arguments) (.unknownCommand word)
  | numbered {word : List UInt8} {arguments : List (List UInt8)} {fault : ParseError}
      (named : NamesNumbered word) (misnumbered : Misnumbered arguments fault) :
    Faulty (word :: arguments) fault
  | trailing {word more : List UInt8} {rest : List (List UInt8)}
      (named : Ascii.Names word (Ascii.bytes "LIST")) :
    Faulty (word :: more :: rest) .trailingArguments

/-- **The first fault of a line.** -/
inductive Refused (line : List UInt8) : ParseError → Prop
  | encoding (broken : ∃ b ∈ line, 0x80 ≤ b) : Refused line .invalidEncoding
  | words {words : List (List UInt8)} {fault : ParseError} (ascii : ∀ b ∈ line, b < 0x80)
      (separated : Ascii.Separated Ascii.isBlank words line) (faulty : Faulty words fault) :
    Refused line fault

/-! ## Stage by stage -/

theorem isTrackNumber_iff :
    IsTrackNumber word ↔ ∃ track, Decimal.read? trackBound word = some track :=
  exists_congr fun _ => Decimal.read?_eq_some_iff.symm

theorem trackOf_eq_error_iff : trackOf arguments = .error fault ↔ Misnumbered arguments fault := by
  cases arguments with
  | nil =>
    constructor
    · rintro ⟨⟩
      exact .missing
    · rintro ⟨⟩
      rfl
  | cons word rest =>
    rw [trackOf]
    cases hread : Decimal.read? trackBound word with
    | none =>
      have hunread : ¬ IsTrackNumber word := by
        rw [isTrackNumber_iff, hread]
        rintro ⟨_, ⟨⟩⟩
      constructor
      · rintro ⟨⟩
        exact .invalid hunread
      · rintro (_ | _ | hnumber)
        · rfl
        · exact absurd hnumber hunread
    | some track =>
      have hnumber : IsTrackNumber word := isTrackNumber_iff.2 ⟨track, hread⟩
      cases rest with
      | nil =>
        constructor
        · rintro ⟨⟩
        · rintro (_ | hunread)
          exact absurd hnumber hunread
      | cons more rest =>
        constructor
        · rintro ⟨⟩
          exact .trailing hnumber
        · rintro (_ | hunread | _)
          · exact absurd hnumber hunread
          · rfl

theorem ofKeyword?_eq_none_iff : Command.ofKeyword? word = none ↔ NamesNone word := by
  rw [Option.eq_none_iff_forall_ne_some]
  exact forall_congr' fun command => not_congr Command.ofKeyword?_eq_some_iff

/-- A word names one keyword at most. -/
theorem eq_of_names {command other : Command}
    (h : Ascii.Names word (Ascii.bytes command.keyword))
    (h' : Ascii.Names word (Ascii.bytes other.keyword)) : command = other := by
  rw [← Command.ofKeyword?_eq_some_iff] at h h'
  exact Option.some.inj (h.symm.trans h')

theorem namesNumbered_iff : NamesNumbered word ↔
    ∃ command : Command, command ≠ .list ∧ Ascii.Names word (Ascii.bytes command.keyword) := by
  constructor
  · rintro (hinfo | hplay)
    · exact ⟨.info, nofun, hinfo⟩
    · exact ⟨.play, nofun, hplay⟩
  · rintro ⟨command, hne, hnamed⟩
    cases command with
    | list => exact absurd rfl hne
    | info => exact .inl hnamed
    | play => exact .inr hnamed

/-- Behind a keyword that asks for a track, what is wrong is wrong with its number… -/
theorem faulty_iff_of_namesNumbered (h : NamesNumbered word) :
    Faulty (word :: arguments) fault ↔ Misnumbered arguments fault := by
  obtain ⟨command, hne, hnamed⟩ := namesNumbered_iff.1 h
  refine ⟨fun hfaulty => ?_, .numbered h⟩
  cases hfaulty with
  | unknown unnamed => exact absurd hnamed (unnamed command)
  | numbered _ misnumbered => exact misnumbered
  | trailing listed => exact absurd (@eq_of_names _ command .list hnamed listed) hne

/-- …and behind the one that does not, any word is one too many. -/
theorem faulty_iff_of_namesList (h : Ascii.Names word (Ascii.bytes "LIST")) :
    Faulty (word :: arguments) fault ↔ arguments ≠ [] ∧ fault = .trailingArguments := by
  constructor
  · intro hfaulty
    cases hfaulty with
    | unknown unnamed => exact absurd h (unnamed .list)
    | numbered named =>
      obtain ⟨command, hne, hnamed⟩ := namesNumbered_iff.1 named
      exact absurd (@eq_of_names _ command .list hnamed h) hne
    | trailing => exact ⟨List.cons_ne_nil _ _, rfl⟩
  · rintro ⟨hne, rfl⟩
    obtain ⟨more, rest, rfl⟩ := List.exists_cons_of_ne_nil hne
    exact .trailing h

theorem faulty_iff_of_namesNone (h : NamesNone word) :
    Faulty (word :: arguments) fault ↔ fault = .unknownCommand word := by
  constructor
  · intro hfaulty
    cases hfaulty with
    | unknown => rfl
    | numbered named =>
      obtain ⟨command, -, hnamed⟩ := namesNumbered_iff.1 named
      exact absurd hnamed (h command)
    | trailing listed => exact absurd listed (h .list)
  · rintro rfl
    exact .unknown h

/-- **Words are refused for their first fault**… -/
theorem ofWords_eq_error_iff : ofWords words = .error fault ↔ Faulty words fault := by
  cases words with
  | nil =>
    constructor
    · rintro ⟨⟩
      exact .empty
    · rintro ⟨⟩
      rfl
  | cons word arguments =>
    rw [ofWords]
    cases hc : Command.ofKeyword? word with
    | none =>
      rw [faulty_iff_of_namesNone (ofKeyword?_eq_none_iff.1 hc), Except.error.injEq, eq_comm]
    | some command =>
      have hnamed := Command.ofKeyword?_eq_some_iff.1 hc
      cases command with
      | list =>
        rw [faulty_iff_of_namesList hnamed]
        cases arguments with
        | nil =>
          constructor
          · rintro ⟨⟩
          · rintro ⟨hmore, -⟩
            exact absurd rfl hmore
        | cons more rest => simp [ofCommand, Command.takesTrack, eq_comm]
      | info =>
        rw [faulty_iff_of_namesNumbered (.inl hnamed), ← trackOf_eq_error_iff]
        exact map_eq_error_iff
      | play =>
        rw [faulty_iff_of_namesNumbered (.inr hnamed), ← trackOf_eq_error_iff]
        exact map_eq_error_iff

theorem broken_iff : (∃ b ∈ line, 0x80 ≤ b) ↔ ¬ ∀ b ∈ line, b < 0x80 := by
  simp

theorem refused_iff_of_broken (h : ∃ b ∈ line, 0x80 ≤ b) :
    Refused line fault ↔ fault = .invalidEncoding := by
  constructor
  · intro hrefused
    cases hrefused with
    | encoding => rfl
    | words ascii => exact absurd ascii (broken_iff.1 h)
  · rintro rfl
    exact .encoding h

theorem refused_iff_of_ascii (h : ∀ b ∈ line, b < 0x80)
    (hcut : Ascii.Separated Ascii.isBlank words line) :
    Refused line fault ↔ Faulty words fault := by
  refine ⟨fun hrefused => ?_, .words h hcut⟩
  cases hrefused with
  | encoding broken => exact absurd h (broken_iff.1 broken)
  | words _ separated faulty =>
    have hsame := (Ascii.runs_eq_iff.2 separated).symm.trans (Ascii.runs_eq_iff.2 hcut)
    exact hsame ▸ faulty

/-- …and so are lines… -/
theorem ofLine_eq_error_iff : ofLine line = .error fault ↔ Refused line fault := by
  rw [ofLine]
  split
  · next h =>
    rw [refused_iff_of_ascii (all_isAscii_iff.1 h) (Ascii.separated_runs _ line)]
    exact ofWords_eq_error_iff
  · next h =>
    rw [refused_iff_of_broken (broken_iff.2 (mt all_isAscii_iff.2 h)), Except.error.injEq, eq_comm]

/-- …and buffers with a line. -/
theorem parse_eq_error_iff (h : firstLine? buffer = some line) :
    parse buffer = .error fault ↔ Refused line fault := by
  rw [parse, h, ← ofLine_eq_error_iff]
  exact map_eq_error_iff

/-! ## Fault by fault -/

/-- Words have no fault of encoding. -/
theorem not_faulty_invalidEncoding : ¬ Faulty words .invalidEncoding := by
  intro h
  cases h with
  | numbered _ misnumbered => cases misnumbered

/-- **What the fault of ASCII words means**: none at all, else a first word that is no keyword,
else, behind a keyword that asks for a track, no number or an unreadable one; in all other cases a
word too many.  The word that a fault carries is the offending one as it stands. -/
structure FirstFault (words : List (List UInt8)) (fault : ParseError) : Prop where
  empty : fault = .empty ↔ words = []
  unknown : ∀ word arguments, words = word :: arguments →
    ∀ carried, fault = .unknownCommand carried ↔ NamesNone word ∧ carried = word
  missing : ∀ word arguments, words = word :: arguments → NamesNumbered word →
    (fault = .missingTrack ↔ arguments = [])
  invalid : ∀ word number rest, words = word :: number :: rest → NamesNumbered word →
    ∀ carried, fault = .invalidTrack carried ↔ ¬ IsTrackNumber number ∧ carried = number
  trailing : ∀ word arguments, words = word :: arguments → ¬ NamesNone word →
    (NamesNumbered word → ∃ number rest, arguments = number :: rest ∧ IsTrackNumber number) →
      fault = .trailingArguments

theorem Faulty.firstFault (h : Faulty words fault) : FirstFault words fault where
  empty := by
    constructor
    · rintro rfl
      cases h with
      | empty => rfl
      | numbered _ misnumbered => cases misnumbered
    · rintro rfl
      cases h
      rfl
  unknown := by
    rintro word arguments rfl carried
    constructor
    · rintro rfl
      cases h with
      | unknown unnamed => exact ⟨unnamed, rfl⟩
      | numbered _ misnumbered => cases misnumbered
    · rintro ⟨unnamed, rfl⟩
      exact (faulty_iff_of_namesNone unnamed).1 h
  missing := by
    rintro word arguments rfl named
    have hmisnumbered := (faulty_iff_of_namesNumbered named).1 h
    constructor
    · rintro rfl
      cases hmisnumbered
      rfl
    · rintro rfl
      cases hmisnumbered
      rfl
  invalid := by
    rintro word number rest rfl named carried
    have hmisnumbered := (faulty_iff_of_namesNumbered named).1 h
    constructor
    · rintro rfl
      cases hmisnumbered with
      | invalid unread => exact ⟨unread, rfl⟩
    · rintro ⟨unread, rfl⟩
      cases hmisnumbered with
      | invalid => rfl
      | trailing read => exact absurd read unread
  trailing := by
    rintro word arguments rfl hnamed hnumber
    obtain ⟨command, hcommand⟩ := not_forall_not.1 hnamed
    by_cases hlist : command = .list
    · subst hlist
      exact ((faulty_iff_of_namesList hcommand).1 h).2
    · have hnumbered := namesNumbered_iff.2 ⟨command, hlist, hcommand⟩
      obtain ⟨number, rest, rfl, hread⟩ := hnumber hnumbered
      cases (faulty_iff_of_namesNumbered hnumbered).1 h with
      | invalid unread => exact absurd hread unread
      | trailing => rfl

/-- **A refused line is refused for its first fault.**  Only a buffer without a line is incomplete;
a line that is not accepted has a byte that is not ASCII, wherever it stands, or else the first
fault of its words. -/
theorem refused_for_first_fault :
    (∀ buffer, parse buffer = .error .incomplete ↔ Ascii.newline ∉ buffer)
      ∧ ∀ (line rest : List UInt8) (words : List (List UInt8)) (fault : ParseError),
          Ascii.newline ∉ line → Ascii.Separated Ascii.isBlank words line →
          parse (line ++ Ascii.newline :: rest) = .error fault →
            (fault = .invalidEncoding ↔ ∃ b ∈ line, 0x80 ≤ b)
              ∧ ((∀ b ∈ line, b < 0x80) → FirstFault words fault) := by
  refine ⟨fun buffer => parse_eq_incomplete_iff, fun line rest words fault hnewline hcut h => ?_⟩
  have hrefused := (parse_eq_error_iff (firstLine?_append_newline hnewline rest)).1 h
  constructor
  · constructor
    · rintro rfl
      by_contra hbroken
      have hascii := not_not.1 (mt broken_iff.2 hbroken)
      exact absurd ((refused_iff_of_ascii hascii hcut).1 hrefused) not_faulty_invalidEncoding
    · exact fun broken => (refused_iff_of_broken broken).1 hrefused
  · exact fun hascii => ((refused_iff_of_ascii hascii hcut).1 hrefused).firstFault

/-- A bad number with a word behind it, and a bad byte behind a bad word: each is refused for its
first fault alone. -/
theorem refused_for_first_fault_twice :
    FirstFault [Ascii.bytes "play", Ascii.bytes "18446744073709551616", Ascii.bytes "x"]
        (.invalidTrack (Ascii.bytes "18446744073709551616"))
      ∧ ∃ b ∈ Ascii.bytes "STOP " ++ [0xFF], 0x80 ≤ b := by
  constructor
  · exact (refused_for_first_fault.2 (Ascii.bytes "play 18446744073709551616\tx\r") []
      [Ascii.bytes "play", Ascii.bytes "18446744073709551616", Ascii.bytes "x"]
      (.invalidTrack (Ascii.bytes "18446744073709551616")) (by decide +kernel)
      (Ascii.runs_eq_iff.1 (by decide +kernel)) (by decide +kernel)).2 (by decide +kernel)
  · exact (refused_for_first_fault.2 (Ascii.bytes "STOP " ++ [0xFF]) []
      [Ascii.bytes "STOP", [0xFF]] .invalidEncoding (by decide)
      (Ascii.runs_eq_iff.1 (by decide +kernel)) (by decide +kernel)).1.1 rfl

end TrackServer.Request
