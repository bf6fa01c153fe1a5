import TrackServer.Proofs.Endless
import TrackServer.Proofs.Grammar
import TrackServer.Proofs.Lifecycle

/-!
# Proofs/Restraint — what a peer can make a connection read

A connection asks for bytes only while those it has do not decide (`Inlet.Needed`).  They are then
within the bound, so one more read is the last, and it hands over no more than a read does; and as
every read hands over something, there are not many of them either.

For the same reason a call of input ends: each read that is not interrupted ends it or brings it
nearer to a decision, so some of them are enough, whatever would come behind (`intake_append`).

* `reading_is_bounded`: both, at every moment of a connection's life.
-/

namespace TrackServer

variable {bound : ℕ} {log : List ReadResult}

/-- The read handed bytes over. -/
def ReadResult.isData : ReadResult → Bool
  | .data _ => true
  | _ => false

namespace Inlet

/-! ## Reads that were needed -/

/-- **Every read that handed bytes over was needed**: the bytes read before it did not decide. -/
inductive Needed (bound : ℕ) : List ReadResult → Prop
  | nil : Needed bound []
  | idle {result : ReadResult} {log : List ReadResult} (idle : result.isData = false)
      (earlier : Needed bound log) : Needed bound (result :: log)
  | data (piece : Piece) {log : List ReadResult} (undecided : ¬ Decided bound (received log))
      (earlier : Needed bound log) : Needed bound (.data piece :: log)

theorem received_cons_of_not_isData {result : ReadResult} (h : result.isData = false)
    (log : List ReadResult) : received (result :: log) = received log := by
  cases result with
  | data => cases h
  | ended | wouldBlock | interrupted | failed => rfl

/-- Each read that handed bytes over handed over some. -/
theorem countP_isData_le (log : List ReadResult) :
    log.countP ReadResult.isData ≤ (received log).length := by
  induction log with
  | nil => exact Nat.le_refl 0
  | cons result earlier ih =>
    cases result with
    | data piece =>
      have hsome := List.length_pos_of_ne_nil piece.nonempty
      rw [List.countP_cons_of_pos rfl, received, List.length_append]
      omega
    | ended | wouldBlock | interrupted | failed => exact ih

/-- **Needed reads take no more than one read past the bound**… -/
theorem Needed.length_received_le (h : Needed bound log) :
    (received log).length ≤ bound + readLimit := by
  induction h with
  | nil => exact Nat.zero_le _
  | idle idle _ ih => rwa [received_cons_of_not_isData idle]
  | data piece undecided =>
    have hbound := (not_decided_iff.1 undecided).2
    have hpiece := piece.fits
    rw [received, List.length_append]
    omega

/-- …and only the last of them goes past it. -/
theorem Needed.countP_isData_le (h : Needed bound log) :
    log.countP ReadResult.isData ≤ bound + 1 := by
  induction h with
  | nil => exact Nat.zero_le _
  | idle idle _ ih => rwa [List.countP_cons_of_neg (by simp [idle])]
  | @data piece log undecided =>
    have hbound := (not_decided_iff.1 undecided).2
    have hcount := Inlet.countP_isData_le log
    rw [List.countP_cons_of_pos rfl]
    omega

end Inlet

/-! ## The read loop -/

namespace Service

variable (service : Service)

/-- **Reading asks for no bytes that are not needed.** -/
theorem needed_intake (script : List ReadResult)
    (undecided : ¬ Decided service.maxRequest (Inlet.received log))
    (h : Inlet.Needed service.maxRequest log) :
    Inlet.Needed service.maxRequest
      (service.intake (Inlet.received log) log script).2.2.log := by
  induction script generalizing log with
  | nil => exact .idle rfl h
  | cons result rest ih =>
    cases result with
    | wouldBlock | ended | failed => exact .idle rfl h
    | interrupted => exact @ih (.interrupted :: log) undecided (.idle rfl h)
    | data piece =>
      by_cases hd : Decided service.maxRequest (Inlet.received log ++ piece.bytes)
      · rw [intake_data_of_decided log rest hd]
        exact .data piece undecided h
      · rw [intake_data_of_not_decided log rest hd]
        exact @ih (.data piece :: log) hd (.data piece undecided h)

/-- **Reading ends over enough reads**: each that is not interrupted ends it or adds a byte, and so
many bytes decide.  What comes behind them is not touched. -/
theorem intake_append {buffer : List UInt8} {script : List ReadResult}
    (undecided : ¬ Decided service.maxRequest buffer)
    (enough : service.maxRequest < buffer.length + script.countP (· != .interrupted))
    (more : List ReadResult) :
    service.intake buffer log (script ++ more)
      = ((service.intake buffer log script).1, (service.intake buffer log script).2.1,
        (service.intake buffer log script).2.2.extend more) := by
  induction script generalizing buffer log with
  | nil =>
    have hbound := (not_decided_iff.1 undecided).2
    rw [List.countP_nil] at enough
    omega
  | cons result rest ih =>
    cases result with
    | wouldBlock | ended | failed => rfl
    | interrupted => exact ih undecided enough
    | data piece =>
      rw [List.cons_append]
      by_cases hd : Decided service.maxRequest (buffer ++ piece.bytes)
      · rw [intake_data_of_decided log _ hd, intake_data_of_decided log _ hd]
        rfl
      · have hsome := List.length_pos_of_ne_nil piece.nonempty
        rw [intake_data_of_not_decided log _ hd, intake_data_of_not_decided log _ hd]
        refine ih hd ?_
        rw [List.countP_cons_of_pos rfl] at enough
        rw [List.length_append]
        omega

end Service

/-! ## Calls of input -/

namespace Connection

variable {connection : Connection} {service : Service}

theorem close_extendScripts (reads : List ReadResult) (writes : List WriteStep) :
    (connection.extendScripts reads writes).close
      = connection.close.extendScripts reads writes := by
  cases h : connection.phase <;> simp [close, extendScripts, h]

theorem afterIntake_extendScripts (chunkSize : ℕ) (how : Intake) (buffer : List UInt8)
    (inlet : Inlet) (more : List ReadResult) :
    (connection.extendScripts more []).afterIntake chunkSize (how, buffer, inlet.extend more)
      = ((connection.afterIntake chunkSize (how, buffer, inlet)).1,
        (connection.afterIntake chunkSize (how, buffer, inlet)).2.extendScripts more []) := by
  cases how with
  | blocked | answered => rfl
  | ended =>
    refine Prod.ext rfl ?_
    exact @close_extendScripts
      { connection with socket := { connection.socket with inlet }, buffer } more []

/-- **A call of input leaves alone what comes behind enough reads.** -/
theorem handleInput_extendScripts (h : connection.Poised service.maxRequest)
    (enough : service.maxRequest < connection.socket.inlet.script.countP (· != .interrupted))
    (more : List ReadResult) :
    (connection.extendScripts more []).handleInput service
      = ((connection.handleInput service).1,
        (connection.handleInput service).2.extendScripts more []) := by
  cases h with
  | sending sender phase =>
    rw [handleInput_of_sending phase]
    exact handleInput_of_sending phase
  | closing phase =>
    rw [handleInput_of_closing phase]
    exact handleInput_of_closing phase
  | receiving phase _ undecided =>
    have phase' : (connection.extendScripts more []).phase = .receiving := phase
    have happend := @Service.intake_append connection.socket.inlet.log service _ _ undecided
      (Nat.lt_add_left _ enough) more
    rw [handleInput_of_receiving phase, handleInput_of_receiving phase',
      ← afterIntake_extendScripts, ← happend]
    rfl

/-- **Every call of input ends**, whatever the peer goes on to do, if interruptions do not go on for
ever. -/
theorem Poised.endsInput (h : connection.Poised service.maxRequest) {peer : ℕ → ReadResult}
    (relents : ∀ n, ∃ m, n ≤ m ∧ peer m ≠ .interrupted) : connection.EndsInput service peer := by
  have htest : ∀ n, ∃ m, n ≤ m ∧ (peer m != .interrupted) = true := by simpa using relents
  obtain ⟨count, hcount⟩ :=
    @exists_le_countP_beginning _ (· != .interrupted) peer htest (service.maxRequest + 1)
  let facing := connection.extendScripts (beginning peer count) []
  have hscript : beginning peer count <:+ facing.socket.inlet.script := List.suffix_append _ _
  have enough : service.maxRequest < facing.socket.inlet.script.countP (· != .interrupted) :=
    Nat.lt_of_lt_of_le hcount hscript.sublist.countP_le
  refine ⟨count, (facing.handleInput service).1, (facing.handleInput service).2, fun more => ?_⟩
  rw [extendScripts_append_reads]
  exact handleInput_extendScripts (h.extendScripts _ _) enough more

/-! ## What is in the buffer -/

/-- **What is left of the bytes received**, once they are answered: those behind the first line if
that line was parsed, and all of them otherwise. -/
inductive Leaves (received : List UInt8) : List UInt8 → Prop
  | parsed {parsed : Parsed} {line rest : List UInt8} (ok : Request.parse received = .ok parsed)
      (split : received = line ++ Ascii.newline :: rest) (first : Ascii.newline ∉ line) :
    Leaves received rest
  | refused (failed : ∀ parsed, Request.parse received ≠ .ok parsed) : Leaves received received

theorem leaves_leftOver (bytes : List UInt8) : Leaves bytes (Service.leftOver bytes) := by
  cases hp : Request.parse bytes with
  | error fault =>
    rw [Service.leftOver, hp]
    exact .refused fun parsed hok => by simp [hp] at hok
  | ok parsed =>
    obtain ⟨request, consumed⟩ := parsed
    obtain ⟨line, rest, hsplit, hfirst, rfl, -⟩ := Request.parse_eq_ok_iff.1 hp
    have hleft : Service.leftOver bytes = rest := by
      rw [Service.leftOver, hp]
      simp [hsplit]
    rw [hleft]
    exact .parsed hp hsplit hfirst

/-- **A connection that read no more than it needed**, and holds what it has to of it. -/
structure Frugal (bound : ℕ) (connection : Connection) : Prop where
  poised : connection.Poised bound
  needed : Inlet.Needed bound connection.socket.inlet.log
  leftOver : ∀ sender, connection.phase = .sending sender →
    connection.buffer = Service.leftOver (Inlet.received connection.socket.inlet.log)

theorem frugal_ofSocket (bound : ℕ) (reads : List ReadResult) (writes : List WriteStep) :
    (ofSocket (.ofScripts reads writes)).Frugal bound :=
  ⟨poised_ofSocket bound reads writes, .nil, nofun⟩

theorem Frugal.close {bound : ℕ} (h : connection.Frugal bound) : connection.close.Frugal bound where
  poised := .closing phase_close
  needed := by simpa using h.needed
  leftOver sender hs := by
    rw [phase_close] at hs
    cases hs

theorem Frugal.handleInput (h : connection.Frugal service.maxRequest) :
    (connection.handleInput service).2.Frugal service.maxRequest := by
  have hpoised := h.poised.handleInput
  cases h.poised with
  | sending sender phase => rwa [handleInput_of_sending phase]
  | closing phase => rwa [handleInput_of_closing phase]
  | receiving phase buffer undecided =>
    have hrests := service.rests_intake connection.socket.inlet.script
      connection.socket.inlet.log (buffer ▸ undecided)
    have hneeded := service.needed_intake connection.socket.inlet.script (buffer ▸ undecided)
      h.needed
    have hreads := reads service connection
    rw [← buffer] at hrests hneeded
    generalize connection.handleInput service = result at hpoised hreads
    cases hreads with
    | idle => exact h
    | blocked _ read =>
      rw [read] at hneeded
      exact ⟨hpoised, hneeded, fun _ hs => nomatch phase.symm.trans hs⟩
    | answered _ read =>
      rw [read] at hneeded hrests
      exact ⟨hpoised, hneeded, fun _ _ => hrests.2.2⟩
    | ended _ read =>
      rw [read] at hneeded
      exact ⟨hpoised, by simpa using hneeded, fun _ hs => nomatch phase_close.symm.trans hs⟩

theorem Frugal.handleOutput {bound : ℕ} (h : connection.Frugal bound) :
    connection.handleOutput.2.Frugal bound := by
  have hpoised := h.poised.handleOutput
  have hwrites := writes connection
  generalize connection.handleOutput = result at hpoised hwrites
  cases hwrites with
  | idle => exact h
  | blocked phase => exact ⟨hpoised, h.needed, fun _ _ => h.leftOver _ phase⟩
  | through =>
    exact ⟨hpoised, by simpa using h.needed, fun _ hs => nomatch phase_close.symm.trans hs⟩

/-- **Every call keeps a connection frugal**… -/
theorem Frugal.call (h : connection.Frugal service.maxRequest) (call : Call) :
    (connection.call service call).Frugal service.maxRequest := by
  cases call with
  | input files => exact @Frugal.handleInput connection { service with files } h
  | output => exact h.handleOutput
  | close => exact h.close

/-- …and so does every run. -/
theorem Frugal.run (h : connection.Frugal service.maxRequest) (calls : List Call) :
    (connection.run service calls).Frugal service.maxRequest := by
  induction calls generalizing connection with
  | nil => exact h
  | cons call rest ih => exact ih (h.call call)

/-! ## A whole life -/

theorem length_leftOver_le (bytes : List UInt8) :
    (Service.leftOver bytes).length ≤ bytes.length := by
  rw [Service.leftOver]
  split
  · rw [List.length_drop]
    exact Nat.sub_le _ _
  · exact Nat.le_refl _

/-- **A connection that its peer cannot overwhelm.**  It took no more reads with bytes in them than
one past the bound, no more bytes than one read past it, and holds no more than these; what it holds
is all it received, without a line and within the bound, or what its answer left. -/
structure Restrained (bound : ℕ) (now : Connection) : Prop where
  reads : now.socket.inlet.log.countP ReadResult.isData ≤ bound + 1
  taken : (Inlet.received now.socket.inlet.log).length ≤ bound + readLimit
  buffered : now.buffer.length ≤ bound + readLimit
  receiving : now.isReceiving = true → now.buffer = Inlet.received now.socket.inlet.log
    ∧ Ascii.newline ∉ now.buffer ∧ now.buffer.length ≤ bound
  sending : now.isSending = true → Leaves (Inlet.received now.socket.inlet.log) now.buffer

theorem Frugal.restrained {bound : ℕ} (h : connection.Frugal bound) (he : connection.Emptied) :
    connection.Restrained bound := by
  have htaken := h.needed.length_received_le
  cases h.poised with
  | receiving phase buffer undecided =>
    exact {
      reads := h.needed.countP_isData_le
      taken := htaken
      buffered := buffer ▸ htaken
      receiving := fun _ => ⟨buffer, not_decided_iff.1 undecided⟩
      sending := fun hs => by simp [isSending, phase] at hs }
  | sending sender phase =>
    have hbuffer := h.leftOver sender phase
    exact {
      reads := h.needed.countP_isData_le
      taken := htaken
      buffered := hbuffer ▸ Nat.le_trans (length_leftOver_le _) htaken
      receiving := fun hr => by simp [isReceiving, phase] at hr
      sending := fun _ => hbuffer ▸ leaves_leftOver _ }
  | closing phase =>
    exact {
      reads := h.needed.countP_isData_le
      taken := htaken
      buffered := by simp [he phase]
      receiving := fun hr => by simp [isReceiving, phase] at hr
      sending := fun hs => by simp [isSending, phase] at hs }

/-- **Reading is bounded.**  Whatever a peer sends, however it comes in and whatever calls are made,
a connection reads and holds no more than a read past the bound; and every call of input ends, even
over a peer that never stops, if interruptions do not go on for ever.  Loading the track that a
request asks for is taken to end, as reading a file does. -/
theorem reading_is_bounded (service : Service) (reads : List ReadResult) (writes : List WriteStep)
    (calls : List Call) :
    let now := (ofSocket (.ofScripts reads writes)).run service calls
    now.Restrained service.maxRequest
      ∧ ∀ (files : FileSystem) (peer : ℕ → ReadResult),
        (∀ n, ∃ m, n ≤ m ∧ peer m ≠ .interrupted) → now.EndsInput { service with files } peer := by
  have hfrugal := (frugal_ofSocket service.maxRequest reads writes).run calls
  have hempty : (ofSocket (.ofScripts reads writes)).Emptied := nofun
  refine ⟨hfrugal.restrained (emptied_run hempty service calls), fun files peer relents => ?_⟩
  exact @Poised.endsInput _ { service with files } hfrugal.poised peer relents

/-- A peer that sends the letter `A` for ever, with an interruption before each. -/
def tireless (n : ℕ) : ReadResult :=
  if n % 2 = 0 then .interrupted else .data ⟨[0x41], by decide, by decide⟩

theorem reading_is_bounded_tireless :
    let now := (ofSocket (.ofScripts [.data ⟨[0x41, 0x41], by decide, by decide⟩, .wouldBlock]
      [])).run ⟨⟨[]⟩, .empty, 4, 4⟩ [.input .empty]
    (∀ n, ∃ m, n ≤ m ∧ tireless m ≠ .interrupted)
      ∧ now.Restrained 4 ∧ now.EndsInput ⟨⟨[]⟩, .empty, 4, 4⟩ tireless := by
  have relents : ∀ n, ∃ m, n ≤ m ∧ tireless m ≠ .interrupted := fun n =>
    ⟨2 * n + 1, by omega, by simp [tireless]⟩
  have hbounded := reading_is_bounded ⟨⟨[]⟩, .empty, 4, 4⟩
    [.data ⟨[0x41, 0x41], by decide, by decide⟩, .wouldBlock] [] [.input .empty]
  exact ⟨relents, hbounded.1, hbounded.2 .empty tireless relents⟩

end Connection

end TrackServer
