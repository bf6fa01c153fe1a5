import TrackServer.Proofs.Alone
import TrackServer.Proofs.Calls
import TrackServer.Proofs.Receiving
import TrackServer.Proofs.Sending

/-!
# Proofs/Poised — a connection between two notifications

Reading a connection that receives has three endings, and writing one that sends has two (`Reads`,
`Writes`).  In each of them what the connection says it needs next is told by the phase it is then
in (`needs`).

Between two notifications a connection is `Poised`: the direction it waits on was not tried yet, or
the last attempt there would have blocked.  Reading and writing keep it so (`Poised.handleInput`,
`Poised.handleOutput`), whatever the socket does, for both go on until an attempt would block or the
phase ends.

* `exhausts_attend`: a notification exhausts the directions it reports and leaves the others alone.
-/

namespace TrackServer

namespace Connection

variable {connection : Connection} {service : Service} {sender : Sender} {bound : Nat}
  {result : Next × Connection}

/-! ## Needs -/

/-- What the phase of a connection needs. -/
def needs (connection : Connection) : Next :=
  match connection.phase with
  | .receiving => .read
  | .sending _ => .write
  | .closing => .close

theorem needs_of_receiving (h : connection.phase = .receiving) : connection.needs = .read := by
  rw [needs, h]

theorem needs_of_sending (h : connection.phase = .sending sender) : connection.needs = .write := by
  rw [needs, h]

theorem needs_of_closing (h : connection.phase = .closing) : connection.needs = .close := by
  rw [needs, h]

theorem isReceiving_eq (connection : Connection) :
    connection.isReceiving = decide (connection.needs = .read) := by
  cases h : connection.phase <;> simp [isReceiving, needs, h]

theorem isSending_eq (connection : Connection) :
    connection.isSending = decide (connection.needs = .write) := by
  cases h : connection.phase <;> simp [isSending, needs, h]

theorem isClosing_eq (connection : Connection) :
    connection.isClosing = decide (connection.needs = .close) := by
  cases h : connection.phase <;> simp [isClosing, needs, h]

/-! ## How reading and writing end -/

/-- **How reading ends**: a connection that does not receive is left as it is; for one that does,
reading would block, or what was read is answered, or the stream is over. -/
inductive Reads (service : Service) (connection : Connection) : Next × Connection → Prop
  | idle (other : connection.phase ≠ .receiving) :
    Reads service connection (connection.needs, connection)
  | blocked {buffer : List UInt8} {inlet : Inlet} (phase : connection.phase = .receiving)
      (read : service.intake connection.buffer connection.socket.inlet.log
        connection.socket.inlet.script = (.blocked, buffer, inlet)) :
    Reads service connection (.read, ⟨⟨inlet, connection.socket.outlet⟩, buffer, connection.phase⟩)
  | answered {response : Response} {buffer : List UInt8} {inlet : Inlet}
      (phase : connection.phase = .receiving)
      (read : service.intake connection.buffer connection.socket.inlet.log
        connection.socket.inlet.script = (.answered response, buffer, inlet)) :
    Reads service connection (.write, ⟨⟨inlet, connection.socket.outlet⟩, buffer,
      .sending (.ofPayload response.payload service.chunkSize)⟩)
  | ended {buffer : List UInt8} {inlet : Inlet} (phase : connection.phase = .receiving)
      (read : service.intake connection.buffer connection.socket.inlet.log
        connection.socket.inlet.script = (.ended, buffer, inlet)) :
    Reads service connection
      (.close, close ⟨⟨inlet, connection.socket.outlet⟩, buffer, connection.phase⟩)

theorem reads (service : Service) (connection : Connection) :
    Reads service connection (connection.handleInput service) := by
  cases hp : connection.phase with
  | receiving =>
    rw [handleInput_of_receiving hp]
    rcases hread : service.intake connection.buffer connection.socket.inlet.log
      connection.socket.inlet.script with ⟨how, buffer, inlet⟩
    cases how with
    | blocked => exact .blocked hp hread
    | answered response => exact .answered hp hread
    | ended => exact .ended hp hread
  | sending =>
    rw [handleInput_of_sending hp, ← needs_of_sending hp]
    exact .idle (by rw [hp]; exact nofun)
  | closing =>
    rw [handleInput_of_closing hp, ← needs_of_closing hp]
    exact .idle (by rw [hp]; exact nofun)

/-- **How writing ends**: a connection that does not send is left as it is; for one that does,
writing would block, or the sender is through, be it done or failed. -/
inductive Writes (connection : Connection) : Next × Connection → Prop
  | idle (other : ∀ sender, connection.phase ≠ .sending sender) :
    Writes connection (connection.needs, connection)
  | blocked {sender after : Sender} {outlet : Outlet} (phase : connection.phase = .sending sender)
      (drained : sender.drain connection.socket.outlet = (.blocked, after, outlet)) :
    Writes connection
      (.write, ⟨⟨connection.socket.inlet, outlet⟩, connection.buffer, .sending after⟩)
  | through {sender after : Sender} {how : Drained} {outlet : Outlet}
      (phase : connection.phase = .sending sender)
      (drained : sender.drain connection.socket.outlet = (how, after, outlet))
      (ends : how ≠ .blocked) :
    Writes connection
      (.close, close ⟨⟨connection.socket.inlet, outlet⟩, connection.buffer, .sending after⟩)

theorem writes (connection : Connection) : Writes connection connection.handleOutput := by
  cases hp : connection.phase with
  | sending sender =>
    rw [handleOutput_of_sending hp]
    rcases hdrained : sender.drain connection.socket.outlet with ⟨how, after, outlet⟩
    cases how with
    | blocked => exact .blocked hp hdrained
    | delivered => exact .through hp hdrained nofun
    | failed => exact .through hp hdrained nofun
  | receiving =>
    rw [handleOutput_of_receiving hp, ← needs_of_receiving hp]
    exact .idle (by rw [hp]; exact nofun)
  | closing =>
    rw [handleOutput_of_closing hp, ← needs_of_closing hp]
    exact .idle (by rw [hp]; exact nofun)

/-- **After reading a connection says what its phase needs**… -/
theorem fst_handleInput (connection : Connection) (service : Service) :
    (connection.handleInput service).1 = (connection.handleInput service).2.needs := by
  have hreads := reads service connection
  generalize connection.handleInput service = result at hreads
  cases hreads with
  | idle => rfl
  | blocked phase => rw [needs, phase]
  | answered => rfl
  | ended => rw [needs_of_closing phase_close]

/-- …and so it does after writing. -/
theorem fst_handleOutput (connection : Connection) :
    connection.handleOutput.1 = connection.handleOutput.2.needs := by
  have hwrites := writes connection
  generalize connection.handleOutput = result at hwrites
  cases hwrites with
  | idle | blocked => rfl
  | through => rw [needs_of_closing phase_close]

/-- Reading changes only a connection that receives… -/
theorem handleInput_eq_of_needs (h : connection.needs ≠ .read) :
    (connection.handleInput service).2 = connection := by
  have hreads := reads service connection
  generalize connection.handleInput service = result at hreads
  cases hreads with
  | idle => rfl
  | blocked phase | answered phase | ended phase => exact absurd (needs_of_receiving phase) h

/-- …and writing leads to no other need but the last. -/
theorem needs_handleOutput (connection : Connection) :
    connection.handleOutput.2.needs = connection.needs
      ∨ connection.handleOutput.2.needs = .close := by
  have hwrites := writes connection
  generalize connection.handleOutput = result at hwrites
  cases hwrites with
  | idle => exact .inl rfl
  | blocked phase => exact .inl (needs_of_sending phase).symm
  | through => exact .inr (needs_of_closing phase_close)

/-! ## Blocked directions -/

/-- The last read would have blocked. -/
def ReadBlocked (connection : Connection) : Prop :=
  ∃ earlier, connection.socket.inlet.log = .wouldBlock :: earlier

/-- The last write would have blocked, and the sender has bytes left. -/
def WriteBlocked (connection : Connection) (sender : Sender) : Prop :=
  (∃ attempt earlier, connection.socket.outlet.log = attempt :: earlier
    ∧ attempt.result = .wouldBlock) ∧ sender.remaining ≠ 0

/-- Reading that would block did so at its last read. -/
theorem readBlocked_of_intake {buffer : List UInt8} {inlet : Inlet}
    (h : service.intake connection.buffer connection.socket.inlet.log
      connection.socket.inlet.script = (.blocked, buffer, inlet)) :
    ∃ earlier, inlet.log = .wouldBlock :: earlier := by
  have := Service.log_of_intake_blocked (congrArg Prod.fst h)
  rwa [h] at this

/-- Writing that would block did so at its last write, with bytes left. -/
theorem writeBlocked_of_drain {outlet outlet' : Outlet} {after : Sender}
    (h : sender.drain outlet = (.blocked, after, outlet')) :
    (∃ attempt earlier, outlet'.log = attempt :: earlier ∧ attempt.result = .wouldBlock)
      ∧ after.remaining ≠ 0 := by
  have := Sender.log_of_drain_blocked (congrArg Prod.fst h)
  rwa [h] at this

/-! ## Poised connections -/

/-- **A connection poised for its next notification.**  While it receives, nothing it read decides,
and it has not read yet or would block; while it sends, it has not written yet or would block. -/
inductive Poised (bound : Nat) (connection : Connection) : Prop
  | receiving (phase : connection.phase = .receiving)
      (buffer : connection.buffer = Inlet.received connection.socket.inlet.log)
      (undecided : ¬ Decided bound connection.buffer)
      (waits : connection.socket.inlet.log = [] ∨ connection.ReadBlocked)
      (unwritten : connection.socket.outlet.log = [])
  | sending (sender : Sender) (phase : connection.phase = .sending sender)
      (waits : connection.socket.outlet.log = [] ∨ connection.WriteBlocked sender)
  | closing (phase : connection.phase = .closing)

theorem poised_ofSocket (bound : Nat) (reads : List ReadResult) (writes : List WriteStep) :
    (ofSocket (.ofScripts reads writes)).Poised bound :=
  .receiving rfl rfl (by simp [ofSocket, Decided]) (.inl rfl) rfl

theorem Poised.extendScripts (h : connection.Poised bound) (reads : List ReadResult)
    (writes : List WriteStep) : (connection.extendScripts reads writes).Poised bound := by
  cases h with
  | receiving phase buffer undecided waits unwritten =>
    exact .receiving phase buffer undecided waits unwritten
  | sending sender phase waits => exact .sending sender phase waits
  | closing phase => exact .closing phase

theorem Poised.handleInput (h : connection.Poised service.maxRequest) :
    (connection.handleInput service).2.Poised service.maxRequest := by
  cases h with
  | sending sender phase waits =>
    rw [handleInput_of_sending phase]
    exact .sending sender phase waits
  | closing phase =>
    rw [handleInput_of_closing phase]
    exact .closing phase
  | receiving phase buffer undecided waits unwritten =>
    have hrests := service.rests_intake connection.socket.inlet.script
      connection.socket.inlet.log (buffer ▸ undecided)
    have hreads := reads service connection
    generalize connection.handleInput service = result at hreads
    cases hreads with
    | idle other => exact absurd phase other
    | blocked _ read =>
      rw [← buffer, read] at hrests
      exact .receiving phase hrests.2 (hrests.2 ▸ hrests.1) (.inr (readBlocked_of_intake read))
        unwritten
    | answered => exact .sending _ rfl (.inl unwritten)
    | ended => exact .closing phase_close

theorem Poised.handleOutput (h : connection.Poised bound) :
    connection.handleOutput.2.Poised bound := by
  have hwrites := writes connection
  generalize connection.handleOutput = result at hwrites
  cases hwrites with
  | idle => exact h
  | blocked _ drained => exact .sending _ rfl (.inr (writeBlocked_of_drain drained))
  | through => exact .closing phase_close

theorem Poised.call (h : connection.Poised service.maxRequest) (call : Call) :
    (connection.call service call).Poised service.maxRequest := by
  cases call with
  | input files => exact @Poised.handleInput connection { service with files } h
  | output => exact h.handleOutput
  | close => exact .closing phase_close

theorem Poised.run (h : connection.Poised service.maxRequest) (calls : List Call) :
    (connection.run service calls).Poised service.maxRequest := by
  induction calls generalizing connection with
  | nil => exact h
  | cons call rest ih => exact ih (h.call call)

/-! ## What is left after a notification -/

/-- A connection that still receives after reading would block. -/
theorem readBlocked_of_receiving (h : (connection.handleInput service).2.phase = .receiving) :
    (connection.handleInput service).2.ReadBlocked := by
  have hreads := reads service connection
  generalize connection.handleInput service = result at hreads h
  cases hreads with
  | idle other => exact absurd h other
  | blocked _ read => exact readBlocked_of_intake read
  | answered => cases h
  | ended => rw [phase_close] at h; cases h

/-- Reading writes nothing. -/
theorem outlet_handleInput :
    (connection.handleInput service).2.socket.outlet = connection.socket.outlet := by
  have hreads := reads service connection
  generalize connection.handleInput service = result at hreads
  cases hreads with
  | idle | blocked | answered => rfl
  | ended => rw [socket_close]

/-- A connection that still sends after writing would block, with bytes left. -/
theorem writeBlocked_of_sending (h : connection.handleOutput.2.phase = .sending sender) :
    connection.handleOutput.2.WriteBlocked sender := by
  have hwrites := writes connection
  generalize connection.handleOutput = result at hwrites h
  cases hwrites with
  | idle other => exact absurd h (other sender)
  | blocked _ drained =>
    obtain rfl := Phase.sending.inj h
    exact writeBlocked_of_drain drained
  | through => rw [phase_close] at h; cases h

/-- Writing leaves a connection that still receives as it was. -/
theorem handleOutput_eq_of_receiving (h : connection.handleOutput.2.phase = .receiving) :
    connection.handleOutput.2 = connection := by
  have hwrites := writes connection
  generalize connection.handleOutput = result at hwrites h
  cases hwrites with
  | idle => rfl
  | blocked => cases h
  | through => rw [phase_close] at h; cases h

/-- **Exhausted directions.**  A direction that was reported was tried until it would block, if the
connection still waits on it; one that was not reported was not touched. -/
structure Exhausts (readable writable : Bool) (before after : Connection) : Prop where
  read : after.phase = .receiving →
    if readable then after.ReadBlocked else after.socket.inlet = before.socket.inlet
  write : ∀ sender, after.phase = .sending sender →
    if writable then after.WriteBlocked sender
    else after.socket.outlet = before.socket.outlet

theorem exhausts_input (service : Service) (connection : Connection) (readable : Bool) :
    Exhausts readable false connection
      (if readable then (connection.handleInput service).2 else connection) := by
  cases readable with
  | true => exact ⟨readBlocked_of_receiving, fun _ _ => outlet_handleInput⟩
  | false => exact ⟨fun _ => rfl, fun _ _ => rfl⟩

theorem Exhausts.handleOutput {readable : Bool} {before : Connection}
    (h : Exhausts readable false before connection) :
    Exhausts readable true before connection.handleOutput.2 where
  read hp := by
    have hsame := handleOutput_eq_of_receiving hp
    rw [hsame] at hp ⊢
    exact h.read hp
  write _ hp := writeBlocked_of_sending hp

/-- **Attending to a notification exhausts what it reports.** -/
theorem exhausts_attend (service : Service) (connection : Connection)
    (notification : Notification) :
    Exhausts notification.readable notification.writable connection
      (connection.attend service notification) := by
  unfold attend
  split
  · constructor
    · intro hp
      rw [phase_close] at hp
      cases hp
    · intro sender hp
      rw [phase_close] at hp
      cases hp
  · have hinput := exhausts_input service connection notification.readable
    cases notification.writable with
    | true => exact hinput.handleOutput
    | false => exact hinput

end Connection

end TrackServer
