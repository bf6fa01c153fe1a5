import TrackServer.Proofs.Grammar

/-!
# Proofs/Pipelining — requests one after another in a stream

The parser looks at the first line and at nothing behind it.  So what it says of a buffer it says of
every longer one (`parse_append_of_ne_incomplete`), and what it takes ends with the only line
terminator in it (`exists_line_of_parse`).

Parsing again and again, each time without the bytes taken, is `parseAll`.  It reads off a buffer
the requests that its lines spell, one for each, up to the first line that spells none
(`parseAll_eq_iff`).
-/

namespace TrackServer

namespace Request

variable {buffer tail : List UInt8} {lines : List (List UInt8)} {requests : List Request}
  {parsed : Parsed} {fault : ParseError}

/-! ## One request -/

/-- **A buffer that is not incomplete is parsed alike whatever follows.** -/
theorem parse_append_of_ne_incomplete (h : parse buffer ≠ .error .incomplete)
    (more : List UInt8) : parse (buffer ++ more) = parse buffer :=
  parse_append (Classical.not_not.1 fun hn => h (parse_of_no_newline hn)) more

/-- **What a request takes** of a buffer is its first line with the terminator. -/
theorem exists_line_of_parse (h : parse buffer = .ok parsed) :
    ∃ line, buffer.take parsed.consumed = line ++ [Ascii.newline] ∧ Ascii.newline ∉ line := by
  obtain ⟨line, rest, rfl, hnewline, hconsumed, -⟩ := parse_eq_ok_iff.1 h
  refine ⟨line, ?_, hnewline⟩
  rw [hconsumed, List.append_cons, List.take_left']
  simp

/-- A request takes some bytes, and no more than are there. -/
theorem consumed_of_parse (h : parse buffer = .ok parsed) :
    1 ≤ parsed.consumed ∧ parsed.consumed ≤ buffer.length := by
  obtain ⟨line, rest, rfl, -, hconsumed, -⟩ := parse_eq_ok_iff.1 h
  rw [hconsumed, List.length_append, List.length_cons]
  omega

/-! ## Request after request -/

/-- What a buffer parsed again and again comes to: the requests in order, why there is no further
one, and the bytes left. -/
structure Stream where
  requests : List Request
  fault : ParseError
  left : List UInt8
  deriving DecidableEq

/-- A stream with requests in front. -/
def Stream.after (earlier : List Request) (stream : Stream) : Stream :=
  { stream with requests := earlier ++ stream.requests }

/-- **Parse a buffer again and again**, each time without the bytes that the request took. -/
def parseAll (buffer : List UInt8) : Stream :=
  match _h : parse buffer with
  | .ok parsed => (parseAll (buffer.drop parsed.consumed)).after [parsed.request]
  | .error fault => ⟨[], fault, buffer⟩
termination_by buffer.length
decreasing_by
  obtain ⟨hpos, hle⟩ := consumed_of_parse _h
  rw [List.length_drop]
  omega

theorem parseAll_of_ok (h : parse buffer = .ok parsed) :
    parseAll buffer = (parseAll (buffer.drop parsed.consumed)).after [parsed.request] := by
  rw [parseAll]
  split <;> simp_all

theorem parseAll_of_error (h : parse buffer = .error fault) :
    parseAll buffer = ⟨[], fault, buffer⟩ := by
  rw [parseAll]
  split <;> simp_all

/-! ## Lines that spell requests -/

/-- **A line that spells a request**, as it stands in front of its terminator. -/
structure IsLine (line : List UInt8) (request : Request) : Prop where
  unbroken : Ascii.newline ∉ line
  ascii : ∀ b ∈ line, b < 0x80
  spells : Spells line request

theorem isLine_iff {line : List UInt8} {request : Request} :
    IsLine line request ↔ Ascii.newline ∉ line ∧ ofLine line = .ok request := by
  rw [ofLine_eq_ok_iff]
  exact ⟨fun h => ⟨h.unbroken, h.ascii, h.spells⟩,
    fun ⟨unbroken, ascii, spells⟩ => ⟨unbroken, ascii, spells⟩⟩

/-- Lines with their terminators, and what follows the last of them. -/
def pipeline (lines : List (List UInt8)) (tail : List UInt8) : List UInt8 :=
  lines.flatMap (· ++ [Ascii.newline]) ++ tail

theorem pipeline_cons (line : List UInt8) (lines : List (List UInt8)) (tail : List UInt8) :
    pipeline (line :: lines) tail = line ++ Ascii.newline :: pipeline lines tail := by
  simp [pipeline]

/-- A line that spells a request gives it to the front of what its rest comes to. -/
theorem parseAll_cons {line : List UInt8} {request : Request} (h : IsLine line request)
    (rest : List UInt8) :
    parseAll (line ++ Ascii.newline :: rest) = (parseAll rest).after [request] := by
  rw [parseAll_of_ok (parse_eq_ok_iff.2 ⟨line, rest, rfl, h.unbroken, rfl, h.ascii, h.spells⟩)]
  dsimp only
  rw [List.append_cons, List.drop_left']
  simp

/-- **Lines that spell requests are read as these**, in order, before anything that follows. -/
theorem parseAll_pipeline (h : List.Forall₂ IsLine lines requests) (tail : List UInt8) :
    parseAll (pipeline lines tail) = (parseAll tail).after requests := by
  induction h with
  | nil => rfl
  | cons hline _ ih =>
    rw [pipeline_cons, parseAll_cons hline, ih]
    rfl

/-- **What parsing again and again comes to**: the buffer is lines that spell the requests, and
behind them what is at fault. -/
theorem parseAll_eq_iff {left : List UInt8} : parseAll buffer = ⟨requests, fault, left⟩ ↔
    parse left = .error fault
      ∧ ∃ lines, List.Forall₂ IsLine lines requests ∧ buffer = pipeline lines left := by
  constructor
  · intro h
    fun_induction parseAll buffer generalizing requests with
    | case1 buffer parsed hparsed ih =>
      obtain ⟨request, consumed⟩ := parsed
      obtain ⟨line, rest, rfl, unbroken, rfl, ascii, spells⟩ := parse_eq_ok_iff.1 hparsed
      rw [List.append_cons, List.drop_left' (by simp)] at h ih
      cases hrest : parseAll rest with
      | mk others fault' left' =>
        rw [hrest] at h
        obtain ⟨rfl, rfl, rfl⟩ := Stream.mk.inj h
        obtain ⟨hleft, lines, hlines, rfl⟩ := ih hrest
        exact ⟨hleft, line :: lines, .cons ⟨unbroken, ascii, spells⟩ hlines,
          (pipeline_cons line lines left').symm⟩
    | case2 buffer fault' hfault =>
      obtain ⟨rfl, rfl, rfl⟩ := Stream.mk.inj h
      exact ⟨hfault, [], .nil, rfl⟩
  · rintro ⟨hleft, lines, hlines, rfl⟩
    rw [parseAll_pipeline hlines, parseAll_of_error hleft, Stream.after, List.append_nil]

/-- **The parser streams.**  It says of a buffer that is not incomplete what it says of every longer
one; a request takes its line with the only terminator in last place; and lines that spell requests
are read as exactly these requests, in order, with the tail left. -/
theorem requests_stream :
    (∀ buffer more : List UInt8, parse buffer ≠ .error .incomplete →
        parse (buffer ++ more) = parse buffer)
      ∧ (∀ (buffer : List UInt8) (request : Request) (consumed : Nat),
        parse buffer = .ok ⟨request, consumed⟩ →
          1 ≤ consumed ∧ consumed ≤ buffer.length
            ∧ ∃ line, buffer.take consumed = line ++ [Ascii.newline] ∧ Ascii.newline ∉ line)
      ∧ ∀ (lines : List (List UInt8)) (requests : List Request) (tail : List UInt8),
        List.Forall₂ IsLine lines requests → Ascii.newline ∉ tail →
          parseAll (pipeline lines tail) = ⟨requests, .incomplete, tail⟩ := by
  refine ⟨fun buffer more h => parse_append_of_ne_incomplete h more,
    fun buffer request consumed h => ?_, fun lines requests tail hlines htail => ?_⟩
  · obtain ⟨hpos, hle⟩ := consumed_of_parse h
    exact ⟨hpos, hle, exists_line_of_parse h⟩
  · exact parseAll_eq_iff.2 ⟨parse_of_no_newline htail, lines, hlines, rfl⟩

/-- Two requests with blanks of several kinds, and the start of a third. -/
theorem requests_stream_two :
    let play := Ascii.bytes "\tpLaY  +007\r"
    let list := Ascii.bytes "list "
    let buffer := pipeline [play, list] []
    parse buffer ≠ .error .incomplete
      ∧ parse (buffer ++ Ascii.bytes "INF") = parse buffer
      ∧ parse buffer = .ok ⟨.play 7, 13⟩
      ∧ 13 ≤ buffer.length
      ∧ parseAll (pipeline [play, list] (Ascii.bytes "INF"))
        = ⟨[.play 7, .list], .incomplete, Ascii.bytes "INF"⟩ := by
  intro play list buffer
  have hplay : IsLine play (.play 7) := isLine_iff.2 (by decide +kernel)
  have hlist : IsLine list .list := isLine_iff.2 (by decide +kernel)
  have hparse : parse buffer = .ok ⟨.play 7, 13⟩ := by decide +kernel
  have hcomplete : parse buffer ≠ .error .incomplete := by decide +kernel
  obtain ⟨hstable, htakes, hreads⟩ := requests_stream
  exact ⟨hcomplete, hstable buffer _ hcomplete, hparse, (htakes buffer _ _ hparse).2.1,
    hreads _ _ _ (.cons hplay (.cons hlist .nil)) (by decide +kernel)⟩

end Request

end TrackServer
