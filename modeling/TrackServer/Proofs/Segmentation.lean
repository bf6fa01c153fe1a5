import TrackServer.Proofs.Calls
import TrackServer.Proofs.Receiving

/-!
# Proofs/Segmentation — how the network cuts a request

A client's bytes come in reads of any size, with reads between them that would block or were
interrupted.  What some calls of input get to see of a script is `Inlet.visible`; the first read
among it after which all bytes so far decide settles what is sent (`sender?_inputs`).

* `answer_independent_of_cuts`: a first line within the bound is answered in one way, however it
  comes in, and so is a stream that runs past the bound by a whole read.
* `answer_to_long_line`: which cuts of a line over the bound are refused, and which are answered.
-/

namespace TrackServer

/-! ## Handing bytes over -/

namespace ReadResult

/-- The bytes that a read hands over. -/
def bytes : ReadResult → List UInt8
  | .data piece => piece.bytes
  | _ => []

theorem length_bytes_le (result : ReadResult) : result.bytes.length ≤ readLimit := by
  cases result with
  | data piece => exact piece.fits
  | ended | wouldBlock | interrupted | failed => exact Nat.zero_le readLimit

end ReadResult

namespace Inlet

/-- The bytes that reads hand over, in order. -/
def handed (results : List ReadResult) : List UInt8 :=
  results.flatMap ReadResult.bytes

/-- What so many calls of input get to see of the results to come while the stream lasts.  A read
that would block ends a call; the end of the stream, or a fault, ends all of them. -/
def visible : Nat → List ReadResult → List ReadResult
  | 0, _ => []
  | _ + 1, [] => []
  | calls + 1, .wouldBlock :: rest => .wouldBlock :: visible calls rest
  | calls + 1, .interrupted :: rest => .interrupted :: visible (calls + 1) rest
  | calls + 1, .data piece :: rest => .data piece :: visible (calls + 1) rest
  | _ + 1, .ended :: _ | _ + 1, .failed _ :: _ => []

/-- All bytes up to the first read after which they decide, on top of bytes that do not. -/
def decision (bound : Nat) (got : List UInt8) : List ReadResult → Option (List UInt8)
  | [] => none
  | result :: rest =>
    if Decided bound (got ++ result.bytes) then some (got ++ result.bytes)
    else decision bound (got ++ result.bytes) rest

variable {bound : Nat} {got : List UInt8} {results : List ReadResult}

@[simp] theorem handed_nil : handed [] = [] := rfl

@[simp] theorem handed_cons (result : ReadResult) (rest : List ReadResult) :
    handed (result :: rest) = result.bytes ++ handed rest := rfl

@[simp] theorem handed_append (results more : List ReadResult) :
    handed (results ++ more) = handed results ++ handed more := List.flatMap_append

theorem decision_cons_of_decided {result : ReadResult} (rest : List ReadResult)
    (h : Decided bound (got ++ result.bytes)) :
    decision bound got (result :: rest) = some (got ++ result.bytes) := if_pos h

theorem decision_cons_of_not_decided {result : ReadResult} (rest : List ReadResult)
    (h : ¬ Decided bound (got ++ result.bytes)) :
    decision bound got (result :: rest) = decision bound (got ++ result.bytes) rest := if_neg h

/-- A read that hands nothing over decides nothing. -/
theorem decision_cons_of_bytes_eq_nil {result : ReadResult} (rest : List ReadResult)
    (hr : result.bytes = []) (hg : ¬ Decided bound got) :
    decision bound got (result :: rest) = decision bound got rest := by
  have hn : got ++ result.bytes = got := by rw [hr, List.append_nil]
  rw [decision_cons_of_not_decided rest (by rwa [hn]), hn]

theorem handed_isPrefix {cut : List ReadResult} (h : cut <+: results) :
    handed cut <+: handed results := by
  obtain ⟨rest, rfl⟩ := h
  exact handed_append cut rest ▸ List.prefix_append _ _

/-- **A decision is made by one read**, and all bytes before it did not decide. -/
theorem eq_of_decision {bytes : List UInt8} (hg : ¬ Decided bound got)
    (h : decision bound got results = some bytes) :
    ∃ cut result rest, results = cut ++ result :: rest
      ∧ ¬ Decided bound (got ++ handed cut) ∧ Decided bound bytes
      ∧ bytes = got ++ handed cut ++ result.bytes := by
  induction results generalizing got with
  | nil => cases h
  | cons result rest ih =>
    by_cases hd : Decided bound (got ++ result.bytes)
    · rw [decision_cons_of_decided rest hd, Option.some.injEq] at h
      subst h
      exact ⟨[], result, rest, rfl, by simpa using hg, hd, by simp⟩
    · rw [decision_cons_of_not_decided rest hd] at h
      obtain ⟨cut, last, after, rfl, hc, hb, rfl⟩ := ih hd h
      exact ⟨result :: cut, last, after, rfl, by simpa using hc, hb, by simp⟩

/-- **Bytes that decide are decided by some read.** -/
theorem exists_decision (hg : ¬ Decided bound got) (h : Decided bound (got ++ handed results)) :
    ∃ bytes, decision bound got results = some bytes := by
  induction results generalizing got with
  | nil => exact absurd (by simpa using h) hg
  | cons result rest ih =>
    by_cases hd : Decided bound (got ++ result.bytes)
    · exact ⟨_, decision_cons_of_decided rest hd⟩
    · rw [decision_cons_of_not_decided rest hd]
      exact ih hd (by simpa using h)

theorem length_handed_concat_le (cut : List ReadResult) (result : ReadResult) :
    (handed (cut ++ [result])).length ≤ (handed cut).length + readLimit := by
  have := result.length_bytes_le
  simp only [handed_append, handed_cons, handed_nil, List.append_nil, List.length_append]
  omega

end Inlet

/-! ## Beginnings of a stream -/

section Stream

variable {line rest bytes : List UInt8}

/-- A beginning of a stream that is longer than the first line begins with it and its terminator. -/
theorem line_isPrefix (hp : bytes <+: line ++ Ascii.newline :: rest)
    (hl : line.length < bytes.length) : line ++ [Ascii.newline] <+: bytes :=
  List.prefix_of_prefix_length_le ⟨rest, by simp⟩ hp (by rw [List.length_append]; exact hl)

/-- A beginning of a stream holds the terminator of the first line exactly when it is longer than
the line. -/
theorem newline_mem_iff_of_isPrefix (hn : Ascii.newline ∉ line)
    (hp : bytes <+: line ++ Ascii.newline :: rest) :
    Ascii.newline ∈ bytes ↔ line.length < bytes.length := by
  constructor
  · intro hm
    by_cases hl : bytes.length ≤ line.length
    · exact absurd ((List.prefix_of_prefix_length_le hp (List.prefix_append _ _) hl).subset hm) hn
    · exact Nat.lt_of_not_le hl
  · intro hl
    exact (line_isPrefix hp hl).subset (by simp)

/-- …and is then answered as the first line alone. -/
theorem Service.verdict_of_isPrefix (service : Service)
    (hp : bytes <+: line ++ Ascii.newline :: rest) (hl : line.length < bytes.length) :
    service.verdict bytes = service.verdict (line ++ [Ascii.newline]) := by
  obtain ⟨more, rfl⟩ := line_isPrefix hp hl
  exact verdict_append (by simp) more

end Stream

/-! ## Calls of input -/

namespace Connection

/-- The connection with another buffer and other reads, past and to come. -/
def reading (connection : Connection) (buffer : List UInt8) (inlet : Inlet) : Connection :=
  { connection with socket := { connection.socket with inlet }, buffer }

variable {connection : Connection} {service : Service}

theorem afterIntake_reading (buffer : List UInt8) (inlet : Inlet) (chunkSize : Nat)
    (read : Intake × List UInt8 × Inlet) :
    (connection.reading buffer inlet).afterIntake chunkSize read
      = connection.afterIntake chunkSize read := by
  obtain ⟨how, left, inlet'⟩ := read
  cases how <;> rfl

/-- The rest of a script after a read that the loop passed over. -/
theorem handleInput_reading {buffer : List UInt8} {log rest : List ReadResult}
    (hr : connection.phase = .receiving)
    (h : service.intake connection.buffer connection.socket.inlet.log
      connection.socket.inlet.script = service.intake buffer log rest) :
    connection.handleInput service
      = (connection.reading buffer ⟨rest, log⟩).handleInput service := by
  have hr' : (connection.reading buffer ⟨rest, log⟩).phase = .receiving := hr
  rw [handleInput_of_receiving hr, h, handleInput_of_receiving hr', afterIntake_reading]
  rfl

/-- Calls of input, the files being what they are. -/
def inputs (service : Service) (calls : Nat) (connection : Connection) : Connection :=
  connection.run service (List.replicate calls (.input service.files))

theorem inputs_succ (calls : Nat) : connection.inputs service (calls + 1)
    = (connection.handleInput service).2.inputs service calls := rfl

theorem inputs_zero : connection.inputs service 0 = connection := rfl

theorem inputs_of_sending {sender : Sender} (hs : connection.phase = .sending sender)
    (calls : Nat) : connection.inputs service calls = connection := by
  induction calls with
  | zero => rfl
  | succ calls ih => rw [inputs_succ, handleInput_of_sending hs, ih]

theorem inputs_of_closing (hc : connection.phase = .closing) (calls : Nat) :
    connection.inputs service calls = connection := by
  induction calls with
  | zero => rfl
  | succ calls ih => rw [inputs_succ, handleInput_of_closing hc, ih]

/-- A read that would block ends a call of input and changes nothing else. -/
theorem inputs_of_blocked {log rest : List ReadResult} (hr : connection.phase = .receiving)
    (h : service.intake connection.buffer connection.socket.inlet.log
      connection.socket.inlet.script = (.blocked, connection.buffer, ⟨rest, log⟩)) (calls : Nat) :
    connection.inputs service (calls + 1)
      = (connection.reading connection.buffer ⟨rest, log⟩).inputs service calls := by
  rw [inputs_succ, handleInput_of_receiving hr, h]
  rfl

/-- A read that the loop passes over changes the buffer only. -/
theorem inputs_of_passed {buffer : List UInt8} {log rest : List ReadResult}
    (hr : connection.phase = .receiving)
    (h : service.intake connection.buffer connection.socket.inlet.log
      connection.socket.inlet.script = service.intake buffer log rest) (calls : Nat) :
    connection.inputs service (calls + 1)
      = (connection.reading buffer ⟨rest, log⟩).inputs service (calls + 1) := by
  rw [inputs_succ, inputs_succ, handleInput_reading hr h]

/-- An answer ends all reading. -/
theorem inputs_of_answered {response : Response} {left : List UInt8} {inlet : Inlet}
    (hr : connection.phase = .receiving)
    (h : service.intake connection.buffer connection.socket.inlet.log
      connection.socket.inlet.script = (.answered response, left, inlet)) (calls : Nat) :
    connection.inputs service (calls + 1)
      = { socket := { connection.socket with inlet }
          buffer := left
          phase := .sending (.ofPayload response.payload service.chunkSize) } := by
  rw [inputs_succ, handleInput_of_receiving hr, h]
  exact inputs_of_sending rfl calls

/-- The end of the stream, or a fault, ends the connection. -/
theorem sender?_inputs_of_ended (hr : connection.phase = .receiving)
    (h : (service.intake connection.buffer connection.socket.inlet.log
      connection.socket.inlet.script).1 = .ended) (calls : Nat) :
    (connection.inputs service (calls + 1)).sender? = none := by
  rw [inputs_succ, handleInput_of_receiving hr]
  generalize service.intake connection.buffer connection.socket.inlet.log
    connection.socket.inlet.script = read at h
  obtain ⟨how, left, inlet⟩ := read
  obtain rfl : how = .ended := h
  have hc : (connection.afterIntake service.chunkSize (.ended, left, inlet)).2.phase = .closing :=
    phase_close
  rw [inputs_of_closing hc, sender?, hc]

/-- Without anything to read nothing is sent. -/
theorem sender?_inputs_nil (calls : Nat) (hr : connection.phase = .receiving)
    (hs : connection.socket.inlet.script = []) :
    (connection.inputs service calls).sender? = none := by
  induction calls generalizing connection with
  | zero =>
    rw [inputs_zero, sender?, hr]
  | succ calls ih =>
    rw [inputs_of_blocked hr (by rw [hs]; rfl)]
    exact ih hr rfl

/-- **What calls of input come to**: the first read among those they see after which all bytes
decide settles what is sent. -/
theorem sender?_inputs (hr : connection.phase = .receiving) (script log : List ReadResult)
    {buffer : List UInt8} (hb : ¬ Decided service.maxRequest buffer) (calls : Nat) :
    ((connection.reading buffer ⟨script, log⟩).inputs service calls).sender?
      = (Inlet.decision service.maxRequest buffer (Inlet.visible calls script)).map
        fun bytes => .ofPayload (service.verdict bytes).payload service.chunkSize := by
  induction script generalizing buffer log calls with
  | nil =>
    have hr' : (connection.reading buffer ⟨[], log⟩).phase = .receiving := hr
    rw [sender?_inputs_nil calls hr' rfl]
    cases calls <;> rfl
  | cons result rest ih =>
    have hr' : (connection.reading buffer ⟨result :: rest, log⟩).phase = .receiving := hr
    cases calls with
    | zero =>
      rw [inputs_zero, sender?, hr']
      rfl
    | succ calls =>
      cases result with
      | ended | failed => exact sender?_inputs_of_ended hr' rfl calls
      | wouldBlock =>
        rw [inputs_of_blocked hr' (Service.intake_wouldBlock service buffer log rest),
          Inlet.visible, Inlet.decision_cons_of_bytes_eq_nil _ rfl hb]
        exact ih (.wouldBlock :: log) hb calls
      | interrupted =>
        rw [inputs_of_passed hr' (Service.intake_interrupted service buffer log rest),
          Inlet.visible, Inlet.decision_cons_of_bytes_eq_nil _ rfl hb]
        exact ih (.interrupted :: log) hb (calls + 1)
      | data piece =>
        rw [Inlet.visible]
        by_cases hd : Decided service.maxRequest (buffer ++ piece.bytes)
        · rw [inputs_of_answered hr' (Service.intake_data_of_decided log rest hd),
            Inlet.decision_cons_of_decided _ hd]
          rfl
        · rw [inputs_of_passed hr' (Service.intake_data_of_not_decided log rest hd),
            Inlet.decision_cons_of_not_decided _ hd]
          exact ih (.data piece :: log) hd (calls + 1)

theorem phase_eq_sending_of_sender? {sender : Sender} (h : connection.sender? = some sender) :
    connection.phase = .sending sender := by
  unfold sender? at h
  split at h
  · next hs => rw [hs, Option.some.inj h]
  · cases h

theorem isSending_eq_isSome_sender? : connection.isSending = connection.sender?.isSome := by
  unfold isSending sender?
  cases connection.phase <;> rfl

/-- **Bytes handed over that decide are answered**, at the read after which they do. -/
theorem phase_inputs_ofSocket {reads : List ReadResult} {calls : Nat} (writes : List WriteStep)
    (h : ((ofSocket (.ofScripts reads writes)).inputs service calls).isSending = true
      ∨ Decided service.maxRequest (Inlet.handed (Inlet.visible calls reads))) :
    ∃ cut result, cut ++ [result] <+: Inlet.visible calls reads
      ∧ ¬ Decided service.maxRequest (Inlet.handed cut)
      ∧ Decided service.maxRequest (Inlet.handed (cut ++ [result]))
      ∧ ((ofSocket (.ofScripts reads writes)).inputs service calls).phase
        = .sending (.ofPayload (service.verdict (Inlet.handed (cut ++ [result]))).payload
          service.chunkSize) := by
  have hfresh : ¬ Decided service.maxRequest [] := by simp [Decided]
  have hsender : ((ofSocket (.ofScripts reads writes)).inputs service calls).sender?
      = (Inlet.decision service.maxRequest [] (Inlet.visible calls reads)).map
        fun bytes => .ofPayload (service.verdict bytes).payload service.chunkSize :=
    @sender?_inputs (ofSocket (.ofScripts reads writes)) service rfl reads [] [] hfresh calls
  have hsome : ∃ bytes,
      Inlet.decision service.maxRequest [] (Inlet.visible calls reads) = some bytes := by
    rcases h with hs | hall
    · rw [isSending_eq_isSome_sender?, hsender, Option.isSome_map] at hs
      exact Option.isSome_iff_exists.1 hs
    · exact Inlet.exists_decision hfresh hall
  obtain ⟨bytes, hd⟩ := hsome
  obtain ⟨cut, result, rest, hv, hc, hb, hbytes⟩ := Inlet.eq_of_decision hfresh hd
  have heq : bytes = Inlet.handed (cut ++ [result]) := by simpa using hbytes
  subst heq
  rw [hd] at hsender
  exact ⟨cut, result, ⟨rest, by simp [hv]⟩, hc, hb, phase_eq_sending_of_sender? hsender⟩

/-! ## Any stream, cut in any way -/

/-- **How the network cuts a request does not matter.**  A first line within the bound gets the one
answer to that line alone; a stream without a terminator up to one read past the bound is refused as
too large. -/
theorem answer_independent_of_cuts (service : Service) {stream : List UInt8}
    {reads : List ReadResult} {calls : Nat}
    (hands : Inlet.handed (Inlet.visible calls reads) <+: stream) (writes : List WriteStep) :
    let handed := Inlet.handed (Inlet.visible calls reads)
    let now := (ofSocket (.ofScripts reads writes)).inputs service calls
    (∀ line rest, stream = line ++ Ascii.newline :: rest → Ascii.newline ∉ line →
        line.length ≤ service.maxRequest → line.length < handed.length →
        now.phase = .sending (.ofPayload (service.verdict (line ++ [Ascii.newline])).payload
          service.chunkSize))
      ∧ (Ascii.newline ∉ stream.take (service.maxRequest + readLimit) →
        now.isSending = true ∨ service.maxRequest < handed.length →
        now.phase = .sending (.ofPayload (Response.refuse Service.tooLarge).payload
          service.chunkSize)) := by
  refine ⟨fun line rest hstream hn hfits hreach => ?_, fun hn hgoes => ?_⟩
  · subst hstream
    have hmem := (newline_mem_iff_of_isPrefix hn hands).2 hreach
    obtain ⟨cut, result, hcut, -, hd, hphase⟩ :=
      phase_inputs_ofSocket writes (.inr (.inl hmem))
    have hp := (Inlet.handed_isPrefix hcut).trans hands
    -- Bytes without the terminator are no longer than the line, so they do not decide.
    have hlong : line.length < (Inlet.handed (cut ++ [result])).length :=
      hd.elim (newline_mem_iff_of_isPrefix hn hp).1 (Nat.lt_of_le_of_lt hfits)
    rw [hphase, service.verdict_of_isPrefix hp hlong]
  · obtain ⟨cut, result, hcut, hc, -, hphase⟩ :=
      phase_inputs_ofSocket writes (hgoes.imp id .inr)
    have hp := (Inlet.handed_isPrefix hcut).trans hands
    have hle := Inlet.length_handed_concat_le cut result
    have hbound := (not_decided_iff.1 hc).2
    have htake : Inlet.handed (cut ++ [result]) <+: stream.take (service.maxRequest + readLimit) :=
      List.prefix_take_iff.2 ⟨hp, by omega⟩
    rw [hphase, Service.verdict_of_newline_notMem fun hm => hn (htake.subset hm)]

/-- The line `PLAY 0` in two reads that are blocked and interrupted between, and five bytes without
a line against a bound of four. -/
theorem answer_independent_of_cuts_two_reads :
    ((ofSocket (.ofScripts
        [.data ⟨[0x50, 0x4C, 0x41], by decide, by decide⟩, .wouldBlock, .interrupted,
          .data ⟨[0x59, 0x20, 0x30, 0x0A, 0x4C], by decide, by decide⟩, .ended] [])).inputs
        ⟨⟨[⟨0, "a.mp3", .memory ⟨#[0x78]⟩, none⟩]⟩, .empty, 4, 6⟩ 2).phase
        = .sending (.ofPayload (Service.verdict
          ⟨⟨[⟨0, "a.mp3", .memory ⟨#[0x78]⟩, none⟩]⟩, .empty, 4, 6⟩
          [0x50, 0x4C, 0x41, 0x59, 0x20, 0x30, 0x0A]).payload 4)
      ∧ ((ofSocket (.ofScripts [.data ⟨[0x50, 0x4C, 0x41, 0x59, 0x20], by decide, by decide⟩]
        [])).inputs ⟨⟨[]⟩, .empty, 4, 4⟩ 1).phase
        = .sending (.ofPayload (Response.refuse Service.tooLarge).payload 4) :=
  ⟨(@answer_independent_of_cuts _ [0x50, 0x4C, 0x41, 0x59, 0x20, 0x30, 0x0A, 0x4C] _ _
      (by decide) []).1 [0x50, 0x4C, 0x41, 0x59, 0x20, 0x30] [0x4C] rfl (by decide) (by decide)
      (by decide),
    (@answer_independent_of_cuts _ [0x50, 0x4C, 0x41, 0x59, 0x20] _ _ (by decide) []).2
      (by decide) (.inr (by decide))⟩

/-- **A line over the bound is refused as too large exactly when a read ends inside it past the
bound**; otherwise it is answered like any other.  A line that is longer by one read always is
refused. -/
theorem answer_to_long_line (service : Service) {line rest : List UInt8}
    (hn : Ascii.newline ∉ line) (hlong : service.maxRequest < line.length)
    {reads : List ReadResult} {calls : Nat}
    (hands : Inlet.handed (Inlet.visible calls reads) <+: line ++ Ascii.newline :: rest)
    {writes : List WriteStep}
    (hgoes : ((ofSocket (.ofScripts reads writes)).inputs service calls).isSending = true
      ∨ service.maxRequest < (Inlet.handed (Inlet.visible calls reads)).length) :
    let now := (ofSocket (.ofScripts reads writes)).inputs service calls
    let parted := ∃ cut, cut <+: Inlet.visible calls reads
      ∧ service.maxRequest < (Inlet.handed cut).length
      ∧ (Inlet.handed cut).length ≤ line.length
    (parted → now.phase = .sending (.ofPayload (Response.refuse Service.tooLarge).payload
        service.chunkSize))
      ∧ (¬ parted → now.phase = .sending (.ofPayload
        (service.verdict (line ++ [Ascii.newline])).payload service.chunkSize))
      ∧ (service.maxRequest + readLimit ≤ line.length → parted) := by
  obtain ⟨cut, result, hcut, hc, hd, hphase⟩ :=
    phase_inputs_ofSocket writes (hgoes.imp id .inr)
  have hp := (Inlet.handed_isPrefix hcut).trans hands
  have hmem := newline_mem_iff_of_isPrefix hn hp
  have hbound := (not_decided_iff.1 hc).2
  have hle := Inlet.length_handed_concat_le cut result
  -- The deciding bytes are past the bound, whether they decide by the line or by their number.
  have hpast : service.maxRequest < (Inlet.handed (cut ++ [result])).length :=
    hd.elim (fun hm => Nat.lt_trans hlong (hmem.1 hm)) id
  refine ⟨?_, fun hnot => ?_, fun hfar => ?_⟩
  · rintro ⟨cut', hcut', hover, hin⟩
    have hwithin : (Inlet.handed (cut ++ [result])).length ≤ line.length := by
      rcases List.prefix_or_prefix_of_prefix hcut hcut' with hpre | hpre
      · exact Nat.le_trans (Inlet.handed_isPrefix hpre).length_le hin
      · rcases List.prefix_concat_iff.1 hpre with rfl | hpre
        · exact hin
        · have := (Inlet.handed_isPrefix hpre).length_le
          omega
    rw [hphase, Service.verdict_of_newline_notMem fun hm => absurd (hmem.1 hm) (by omega)]
  · have hover : line.length < (Inlet.handed (cut ++ [result])).length :=
      Nat.lt_of_not_le fun hin => hnot ⟨cut ++ [result], hcut, hpast, hin⟩
    rw [hphase, service.verdict_of_isPrefix hp hover]
  · exact ⟨cut ++ [result], hcut, hpast, by omega⟩

/-- The line `PLAY 0` against a bound of four: refused if a read ends after its fifth byte. -/
theorem answer_to_long_line_parted :
    ((ofSocket (.ofScripts
      [.data ⟨[0x50, 0x4C, 0x41, 0x59, 0x20], by decide, by decide⟩,
        .data ⟨[0x30, 0x0A], by decide, by decide⟩] [])).inputs ⟨⟨[]⟩, .empty, 4, 4⟩ 1).phase
      = .sending (.ofPayload (Response.refuse Service.tooLarge).payload 4) :=
  (@answer_to_long_line _ [0x50, 0x4C, 0x41, 0x59, 0x20, 0x30] [] (by decide) (by decide) _ _
    (by decide) [] (.inr (by decide))).1
    ⟨[.data ⟨[0x50, 0x4C, 0x41, 0x59, 0x20], by decide, by decide⟩], by decide⟩

/-- The same line in one read is resolved: the bound is not looked at once a line is there. -/
theorem long_line_in_one_read_resolved :
    ¬ ∀ (service : Service) (line rest : List UInt8) (reads : List ReadResult)
        (writes : List WriteStep) (calls : Nat) (sender : Sender),
      Ascii.newline ∉ line → service.maxRequest < line.length →
      Inlet.handed (Inlet.visible calls reads) <+: line ++ Ascii.newline :: rest →
      ((ofSocket (.ofScripts reads writes)).inputs service calls).phase = .sending sender →
      sender = .ofPayload (Response.refuse Service.tooLarge).payload service.chunkSize := by
  intro h
  have := h ⟨⟨[⟨0, "a.mp3", .memory ⟨#[0x78]⟩, none⟩]⟩, .empty, 4, 4⟩
    [0x50, 0x4C, 0x41, 0x59, 0x20, 0x30] []
    [.data ⟨[0x50, 0x4C, 0x41, 0x59, 0x20, 0x30, 0x0A], by decide, by decide⟩] [] 1
    (.ofPayload ⟨#[0x78]⟩ 4) (by decide) (by decide) (by decide) rfl
  exact absurd this (by decide +kernel)

end Connection

end TrackServer
