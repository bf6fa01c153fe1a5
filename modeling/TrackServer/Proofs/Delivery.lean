import TrackServer.Proofs.Calls
import TrackServer.Proofs.Receiving
import TrackServer.Proofs.Sending

/-!
# Proofs/Delivery — a connection delivers one payload

Until the input of a connection decides, it stores nothing (`Unanswered`); from then on what its
outlet stored is always a leading part of one payload, the verdict on the bytes that decided
(`Answered`).  Each call keeps either, or passes from the first
to the second (`Unanswered.call`, `Answered.call`), hence so does every run.

* `delivers_one_payload`: the whole life of a connection over an honest socket.
-/

namespace TrackServer

namespace Connection

variable {connection : Connection}

/-! ## Before the answer -/

/-- **A connection that has answered nothing**: what it read does not decide, it stored nothing, and
it still collects what it reads or is finished. -/
structure Unanswered (bound : Nat) (connection : Connection) : Prop where
  honest : connection.socket.outlet.IsHonest
  stored : connection.socket.outlet.stored = ByteArray.empty
  undecided : ¬ Decided bound (Inlet.received connection.socket.inlet.log)
  phase : connection.phase = .closing ∨ connection.phase = .receiving
    ∧ connection.buffer = Inlet.received connection.socket.inlet.log

/-- **A connection whose answer is fixed**: its outlet stored a leading part of the payload, and
while it is sending, the part that the cursor passed. -/
structure Answered (payload : ByteArray) (connection : Connection) : Prop where
  stored : ∃ count, connection.socket.outlet.stored = payload.extract 0 count
  phase : connection.phase = .closing ∨ ∃ sender, connection.phase = .sending sender
    ∧ sender.payload = payload ∧ sender.Faithful connection.socket.outlet

theorem unanswered_ofSocket (bound : Nat) (reads : List ReadResult) {writes : List WriteStep}
    (honest : ∀ step ∈ writes, step.isHonest = true) :
    (ofSocket (.ofScripts reads writes)).Unanswered bound where
  honest := honest
  stored := rfl
  undecided := by simp [ofSocket, Socket.ofScripts, Inlet.ofScript, Inlet.received, Decided]
  phase := .inr ⟨rfl, rfl⟩

theorem Unanswered.close {bound : Nat} (h : connection.Unanswered bound) :
    connection.close.Unanswered bound where
  honest := by simpa using h.honest
  stored := by simpa using h.stored
  undecided := by simpa using h.undecided
  phase := .inl phase_close

/-- The connection began to send the verdict on the bytes that decided. -/
structure Answers (service : Service) (bytes : List UInt8) (connection : Connection) : Prop where
  decided : Inlet.decidedAt service.maxRequest connection.socket.inlet.log = some bytes
  phase : connection.phase
    = .sending (.ofPayload (service.verdict bytes).payload service.chunkSize)
  buffer : connection.buffer = Service.leftOver bytes
  honest : connection.socket.outlet.IsHonest
  stored : connection.socket.outlet.stored = ByteArray.empty

/-- **Input leaves a connection unanswered, or answers at the read that decides.** -/
theorem Unanswered.input {service : Service} (h : connection.Unanswered service.maxRequest) :
    (connection.handleInput service).2.Unanswered service.maxRequest
      ∨ connection.phase = .receiving
        ∧ ∃ bytes, (connection.handleInput service).2.Answers service bytes := by
  rcases h.phase with hc | ⟨hr, hb⟩
  · left
    rwa [handleInput_of_closing hc]
  · have hrests := service.rests_intake connection.socket.inlet.script
      connection.socket.inlet.log h.undecided
    rw [handleInput_of_receiving hr, hb]
    generalize service.intake (Inlet.received connection.socket.inlet.log)
      connection.socket.inlet.log connection.socket.inlet.script = read at hrests
    obtain ⟨how, buffer, inlet⟩ := read
    cases how with
    | blocked => exact .inl ⟨h.honest, h.stored, hrests.1, .inr ⟨hr, hrests.2⟩⟩
    | ended => exact .inl (Unanswered.close ⟨h.honest, h.stored, hrests.1, .inr ⟨hr, hrests.2⟩⟩)
    | answered response =>
      obtain ⟨hd, rfl, hl⟩ := hrests
      exact .inr ⟨hr, _, hd, rfl, hl, h.honest, h.stored⟩

/-! ## After the answer -/

theorem Answers.answered {service : Service} {bytes : List UInt8}
    (h : connection.Answers service bytes) :
    connection.Answered (service.verdict bytes).payload where
  stored := ⟨0, h.stored.trans ByteArray.extract_same.symm⟩
  phase := .inr ⟨_, h.phase, rfl, h.honest, Nat.zero_le _,
    h.stored.trans ByteArray.extract_same.symm⟩

theorem Answered.close {payload : ByteArray} (h : connection.Answered payload) :
    connection.close.Answered payload where
  stored := by simpa using h.stored
  phase := .inl phase_close

/-- The connection that a drained sender leaves, be it still sending or finished. -/
theorem answered_afterDrain {payload : ByteArray} {sender : Sender}
    (hp : sender.payload = payload) (h : sender.Faithful connection.socket.outlet) :
    (connection.afterDrain (sender.drain connection.socket.outlet)).2.Answered payload := by
  have hpayload : (sender.drain connection.socket.outlet).2.1.payload = payload :=
    Sender.payload_drain.trans hp
  have hfaithful := h.drain
  generalize sender.drain connection.socket.outlet = drained at hpayload hfaithful
  obtain ⟨how, sender', outlet⟩ := drained
  have hwritten : Answered payload
      { connection with socket := { connection.socket with outlet }, phase := .sending sender' } :=
    ⟨⟨_, hpayload ▸ hfaithful.stored⟩, .inr ⟨sender', rfl, hpayload, hfaithful⟩⟩
  cases how with
  | blocked => exact hwritten
  | delivered => exact hwritten.close
  | failed => exact hwritten.close

theorem Answered.output {payload : ByteArray} (h : connection.Answered payload) :
    connection.handleOutput.2.Answered payload := by
  rcases h.phase with hc | ⟨sender, hs, hp, hf⟩
  · rwa [handleOutput_of_closing hc]
  · rw [handleOutput_of_sending hs]
    exact answered_afterDrain hp hf

/-- **Every call keeps the answer.** -/
theorem Answered.call {payload : ByteArray} (h : connection.Answered payload) (service : Service)
    (call : Call) : (connection.call service call).Answered payload := by
  cases call with
  | input files =>
    have hsame : (connection.handleInput { service with files }).2 = connection := by
      rcases h.phase with hc | ⟨sender, hs, -, -⟩
      · rw [handleInput_of_closing hc]
      · rw [handleInput_of_sending hs]
    rwa [Connection.call, hsame]
  | output => exact h.output
  | close => exact h.close

theorem Answered.run {payload : ByteArray} (h : connection.Answered payload) (service : Service)
    (calls : List Call) : (connection.run service calls).Answered payload := by
  induction calls generalizing connection with
  | nil => exact h
  | cons call rest ih => exact ih (h.call service call)

/-! ## A whole life -/

/-- **Every call leaves a connection unanswered, or is the input that answers.** -/
theorem Unanswered.call {service : Service} (h : connection.Unanswered service.maxRequest)
    (call : Call) :
    (connection.call service call).Unanswered service.maxRequest
      ∨ ∃ files bytes, call = .input files ∧ connection.phase = .receiving
        ∧ (connection.call service call).Answers { service with files } bytes := by
  cases call with
  | input files =>
    exact (@Unanswered.input _ { service with files } h).imp id
      fun ⟨hr, bytes, ha⟩ => ⟨files, bytes, rfl, hr, ha⟩
  | output =>
    left
    rcases h.phase with hc | ⟨hr, -⟩
    · rwa [Connection.call, handleOutput_of_closing hc]
    · rwa [Connection.call, handleOutput_of_receiving hr]
  | close => exact .inl h.close

/-- What holds of no calls, and of a call followed by a beginning of the rest, holds of every
beginning. -/
theorem forall_isPrefix_cons {P : List Call → Prop} {call : Call} {rest : List Call} (h : P [])
    (hc : ∀ made, made <+: rest → P (call :: made)) (made : List Call)
    (hm : made <+: call :: rest) : P made := by
  rcases List.prefix_cons_iff.1 hm with rfl | ⟨made, rfl, hm'⟩
  · exact h
  · exact hc made hm'

/-- **A run stays unanswered throughout, or splits at the input that answers.** -/
theorem Unanswered.run {service : Service} (h : connection.Unanswered service.maxRequest)
    (calls : List Call) :
    (∀ made, made <+: calls → (connection.run service made).Unanswered service.maxRequest)
      ∨ ∃ made files rest bytes, calls = made ++ .input files :: rest
        ∧ (∀ earlier, earlier <+: made →
          (connection.run service earlier).Unanswered service.maxRequest)
        ∧ (connection.run service made).phase = .receiving
        ∧ (connection.run service (made ++ [.input files])).Answers { service with files }
          bytes := by
  induction calls generalizing connection with
  | nil =>
    refine .inl fun made hm => ?_
    rw [List.prefix_nil.1 hm]
    exact h
  | cons call rest ih =>
    rcases h.call call with hu | ⟨files, bytes, rfl, hr, ha⟩
    · rcases ih hu with hall | ⟨made, files, rest, bytes, rfl, hall, hr, ha⟩
      · exact .inl (forall_isPrefix_cons h hall)
      · exact .inr ⟨call :: made, files, rest, bytes, rfl, forall_isPrefix_cons h hall, hr, ha⟩
    · refine .inr ⟨[], files, rest, bytes, rfl, fun earlier he => ?_, hr, ha⟩
      rw [List.prefix_nil.1 he]
      exact h

/-- A connection that is not sending and stored nothing, no read of which decided yet. -/
structure Silent (bound : Nat) (now : Connection) : Prop where
  idle : now.isSending = false
  stored : now.socket.outlet.stored = ByteArray.empty
  undecided : Inlet.decidedAt bound now.socket.inlet.log = none

/-- **A connection in the course of delivering a payload**: what it stored is a leading part of it,
while it is sending the part up to the cursor; and when output finishes it, all is stored or the
last write failed. -/
structure Delivers (payload : ByteArray) (now : Connection) : Prop where
  stored : ∃ count, now.socket.outlet.stored = payload.extract 0 count
  sending : ∀ sender, now.phase = .sending sender → sender.payload = payload
    ∧ sender.position ≤ payload.size
    ∧ now.socket.outlet.stored = payload.extract 0 sender.position
  finish : now.isSending = true → now.handleOutput.1 = .close →
    now.handleOutput.2.socket.outlet.stored = payload
      ∨ ∃ attempt earlier, now.handleOutput.2.socket.outlet.log = attempt :: earlier
        ∧ attempt.result.IsFailure

/-- The life of a connection over calls: silent throughout, or silent up to the input that answers,
and from there on delivering the verdict on the bytes that decided. -/
inductive Delivery (service : Service) (fresh : Connection) (calls : List Call) : Prop
  | silent (throughout : ∀ made, made <+: calls →
      Silent service.maxRequest (fresh.run service made))
  | answered (made : List Call) (files : FileSystem) (rest : List Call) (bytes : List UInt8)
      (split : calls = made ++ .input files :: rest)
      (before : ∀ earlier, earlier <+: made → Silent service.maxRequest (fresh.run service earlier))
      (receiving : (fresh.run service made).isReceiving = true)
      (sending : (fresh.run service (made ++ [.input files])).isSending = true)
      (decided : Inlet.decidedAt service.maxRequest
        (fresh.run service (made ++ [.input files])).socket.inlet.log = some bytes)
      (delivers : ∀ later, later <+: rest →
        Delivers (Service.verdict { service with files } bytes).payload
          (fresh.run service (made ++ .input files :: later)))

theorem Unanswered.silent {bound : Nat} (h : connection.Unanswered bound) :
    connection.Silent bound where
  idle := by rcases h.phase with hc | ⟨hr, -⟩ <;> simp [isSending, *]
  stored := h.stored
  undecided := Inlet.decidedAt_eq_none_iff.2 h.undecided

/-- Output that finishes a sender left nothing to send, or ended on a failure. -/
theorem finish_handleOutput {sender : Sender} (hs : connection.phase = .sending sender)
    (hf : sender.Faithful connection.socket.outlet) (hc : connection.handleOutput.1 = .close) :
    connection.handleOutput.2.socket.outlet.stored = sender.payload
      ∨ ∃ attempt earlier, connection.handleOutput.2.socket.outlet.log = attempt :: earlier
        ∧ attempt.result.IsFailure := by
  rw [handleOutput_of_sending hs] at hc ⊢
  rcases hd : sender.drain connection.socket.outlet with ⟨how, sender', outlet⟩
  rw [hd] at hc
  cases how with
  | blocked => cases hc
  | delivered =>
    left
    have hstored := hf.stored_of_delivered (congrArg Prod.fst hd)
    rw [hd] at hstored
    simpa only [afterDrain, socket_close] using hstored
  | failed fault =>
    right
    have hlog := Sender.log_of_drain_failed (congrArg Prod.fst hd)
    rw [hd] at hlog
    simpa only [afterDrain, socket_close] using hlog

theorem Answered.delivers {payload : ByteArray} (h : connection.Answered payload) :
    connection.Delivers payload where
  stored := h.stored
  sending sender hs := by
    rcases h.phase with hc | ⟨sender', hs', rfl, hf⟩
    · rw [hc] at hs
      cases hs
    · obtain rfl : sender' = sender := by simpa [hs'] using hs
      exact ⟨rfl, hf.within, hf.stored⟩
  finish hsending hclose := by
    rcases h.phase with hc | ⟨sender, hs, rfl, hf⟩
    · simp [isSending, hc] at hsending
    · exact finish_handleOutput hs hf hclose

/-- **A connection delivers one payload.**  Over an honest socket, whatever it reads and however its
writes are cut short, blocked, interrupted or failed, and in whatever order its calls come. -/
theorem delivers_one_payload (service : Service) (reads : List ReadResult)
    {writes : List WriteStep} (honest : ∀ step ∈ writes, step.isHonest = true)
    (calls : List Call) : Delivery service (ofSocket (.ofScripts reads writes)) calls := by
  have hfresh := unanswered_ofSocket service.maxRequest reads honest
  rcases hfresh.run calls with hall | ⟨made, files, rest, bytes, rfl, hall, hr, ha⟩
  · exact .silent fun made hm => (hall made hm).silent
  · refine .answered made files rest bytes rfl (fun earlier he => (hall earlier he).silent)
      (by rw [isReceiving, hr]) (by rw [isSending, ha.phase]) ha.decided fun later _ => ?_
    have := ha.answered.run service later
    rw [← run_append, List.append_assoc] at this
    exact this.delivers

/-- An unknown word in two reads, refused over writes that are cut short and blocked: before the
second read nothing is stored, then the first chunk, and then all. -/
theorem delivers_one_payload_refusal :
    let service : Service := ⟨⟨[]⟩, .empty, 4, 32⟩
    let start := ofSocket (.ofScripts
      [.data ⟨[0x4C, 0x4F], by decide, by decide⟩, .wouldBlock,
        .data ⟨[0x53, 0x54, 0x0A], by decide, by decide⟩]
      [.accept 4, .wouldBlock, .interrupted, .accept 1])
    let unread := start.run service [.input .empty, .output]
    let begun := unread.run service [.input .empty, .output]
    let finished := begun.run service [.output, .close]
    (∀ step ∈ [WriteStep.accept 4, .wouldBlock, .interrupted, .accept 1], step.isHonest = true)
      ∧ Delivery service start [.input .empty, .output, .input .empty, .output, .output, .close]
      ∧ unread.isReceiving = true ∧ unread.socket.outlet.stored = ByteArray.empty
      ∧ begun.isSending = true ∧ begun.socket.outlet.stored = "ERR ".toByteArray
      ∧ finished.isClosing = true
      ∧ finished.socket.outlet.stored = "ERR unknown command LOST\n".toByteArray := by
  refine ⟨by decide, delivers_one_payload _ _ (by decide) _, ?_, ?_, ?_, ?_, ?_, ?_⟩ <;>
    decide +kernel

end Connection

end TrackServer
