import TrackServer.Proofs.Sending

/-!
# Proofs/Resuming — a sender goes on where the outlet left off

A sender is called chunk by chunk (`Sender.sends`), and any call may be cut short, blocked,
interrupted or failed.  What the attempts in a log took (`Outlet.taken`) is what an honest outlet
stored, and each attempt was offered the slice of the payload that follows the bytes taken before it
(`Outlet.InTurn`).  A call that takes nothing leaves the cursor where it was, so the next one offers
the same slice.

* `resumes_exactly`: all of this, after any number of calls.
-/

namespace TrackServer

/-! ## What a log says -/

namespace Outlet

/-- The bytes that the attempts in a log say were taken, in order. -/
def taken : List WriteAttempt → ByteArray
  | [] => ByteArray.empty
  | attempt :: earlier => taken earlier ++ attempt.offered.extract 0 attempt.result.taken

/-- **Every attempt was offered what follows the bytes taken before it**: the next slice of the
payload, as long as chunks may be, and never nothing. -/
def InTurn (payload : ByteArray) (chunkSize : Nat) (log : List WriteAttempt) : Prop :=
  ∀ later attempt earlier, log = later ++ attempt :: earlier →
    attempt.offered = payload.extract (taken earlier).size ((taken earlier).size
        + min (payload.size - (taken earlier).size) (max chunkSize 1))
      ∧ attempt.offered.size ≠ 0

variable {payload : ByteArray} {chunkSize : Nat} {log : List WriteAttempt} {attempt : WriteAttempt}

theorem inTurn_nil : InTurn payload chunkSize [] := fun _ _ _ h => by simp at h

/-- One more attempt in turn. -/
theorem InTurn.cons (h : InTurn payload chunkSize log)
    (hoffered : attempt.offered = payload.extract (taken log).size ((taken log).size
        + min (payload.size - (taken log).size) (max chunkSize 1)))
    (hsize : attempt.offered.size ≠ 0) : InTurn payload chunkSize (attempt :: log) := by
  intro later attempt' earlier heq
  cases later with
  | nil =>
    obtain ⟨rfl, rfl⟩ := List.cons.inj heq
    exact ⟨hoffered, hsize⟩
  | cons first rest => exact h rest attempt' earlier (List.cons.inj heq).2

theorem taken_cons_of_taken_eq_zero (h : attempt.result.taken = 0) :
    taken (attempt :: log) = taken log := by
  rw [taken, h, ByteArray.extract_same, ByteArray.append_empty]

/-- Interrupted attempts take nothing… -/
theorem taken_interrupted (chunk : ByteArray) (interruptions : Nat) :
    taken (List.replicate interruptions ⟨chunk, .interrupted⟩ ++ log) = taken log := by
  induction interruptions with
  | zero => rfl
  | succ fewer ih =>
    rw [List.replicate_succ, List.cons_append, taken_cons_of_taken_eq_zero rfl, ih]

/-- …so after any number of them it is still the turn of the same slice. -/
theorem InTurn.interrupted (h : InTurn payload chunkSize log) {chunk : ByteArray}
    (hchunk : chunk = payload.extract (taken log).size ((taken log).size
        + min (payload.size - (taken log).size) (max chunkSize 1)))
    (hsize : chunk.size ≠ 0) (interruptions : Nat) :
    InTurn payload chunkSize (List.replicate interruptions ⟨chunk, .interrupted⟩ ++ log) := by
  induction interruptions with
  | zero => exact h
  | succ fewer ih =>
    rw [List.replicate_succ, List.cons_append]
    refine ih.cons ?_ hsize
    rwa [taken_interrupted]

end Outlet

/-! ## Calls -/

namespace Sender

/-- The sender and the outlet after a number of calls. -/
def sends (sender : Sender) (outlet : Outlet) : Nat → Sender × Outlet
  | 0 => (sender, outlet)
  | calls + 1 => ((sender.sends outlet calls).1.send (sender.sends outlet calls).2).2

/-- **A sender in step with the log of its outlet**, on its way through a payload. -/
structure InStep (payload : ByteArray) (chunkSize : Nat) (sender : Sender) (outlet : Outlet) :
    Prop where
  faithful : sender.Faithful outlet
  payload_eq : sender.payload = payload
  chunkSize_eq : sender.chunkSize = chunkSize
  taken : Outlet.taken outlet.log = outlet.stored
  inTurn : Outlet.InTurn payload chunkSize outlet.log

variable {payload : ByteArray} {chunkSize : Nat} {sender : Sender} {outlet : Outlet}

theorem inStep_ofPayload (payload : ByteArray) (chunkSize : Nat) {script : List WriteStep}
    (honest : ∀ step ∈ script, step.isHonest = true) :
    InStep payload chunkSize (ofPayload payload chunkSize) (.ofScript script) where
  faithful := ⟨honest, Nat.zero_le _, ByteArray.extract_same.symm⟩
  payload_eq := rfl
  chunkSize_eq := rfl
  taken := rfl
  inTurn := Outlet.inTurn_nil

theorem size_chunk_ne_zero (hw : sender.position ≤ sender.size) (hr : sender.remaining ≠ 0) :
    sender.chunk.size ≠ 0 := by
  rw [size_chunk hw]
  exact Nat.ne_of_gt (chunkLength_pos hr)

/-- The next chunk is the slice whose turn it is. -/
theorem InStep.chunk (h : InStep payload chunkSize sender outlet) :
    sender.chunk = payload.extract (Outlet.taken outlet.log).size ((Outlet.taken outlet.log).size
      + min (payload.size - (Outlet.taken outlet.log).size) (max chunkSize 1)) := by
  have hsize : (Outlet.taken outlet.log).size = sender.position := by
    have := h.faithful.within
    rw [h.taken, h.faithful.stored, ByteArray.size_extract]
    unfold size at this
    omega
  rw [hsize, Sender.chunk, chunkLength, remaining, size, h.payload_eq, h.chunkSize_eq]

/-- **A call offers the next chunk and nothing else**: after some attempts that were interrupted
comes one that ends the call. -/
theorem log_send (outlet : Outlet) (h : sender.remaining ≠ 0) :
    ∃ interruptions, (sender.send outlet).2.2.log
      = ⟨sender.chunk, (outlet.write sender.chunk).1.last⟩
        :: (List.replicate interruptions ⟨sender.chunk, .interrupted⟩ ++ outlet.log) := by
  rw [snd_send h]
  exact outlet.log_write sender.chunk

/-- **Every call keeps step with the log.** -/
theorem InStep.send (h : InStep payload chunkSize sender outlet) :
    InStep payload chunkSize (sender.send outlet).2.1 (sender.send outlet).2.2 := by
  by_cases hr : sender.remaining = 0
  · rwa [send_of_remaining_eq_zero hr]
  · obtain ⟨interruptions, hlog⟩ := log_send outlet hr
    have hsize := size_chunk_ne_zero h.faithful.within hr
    refine ⟨h.faithful.send, payload_send.trans h.payload_eq, ?_, ?_, ?_⟩
    · rw [snd_send hr]
      exact h.chunkSize_eq
    · rw [hlog, Outlet.taken, Outlet.taken_interrupted, h.taken, snd_send hr]
      exact (h.faithful.honest.stored_write sender.chunk).1.symm
    · rw [hlog]
      refine (h.inTurn.interrupted h.chunk hsize interruptions).cons ?_ hsize
      rw [Outlet.taken_interrupted]
      exact h.chunk

theorem InStep.sends (h : InStep payload chunkSize sender outlet) (calls : Nat) :
    InStep payload chunkSize (sender.sends outlet calls).1 (sender.sends outlet calls).2 := by
  induction calls with
  | zero => exact h
  | succ calls ih => exact ih.send

/-! ## Outcomes -/

/-- **How a call ends**: with bytes sent and the cursor moved by them, or with nothing taken and
nothing moved, or with nothing to do. -/
inductive Ends (sender : Sender) (outlet : Outlet) : SendOutcome × Sender × Outlet → Prop
  | sent {count : Nat} {after : Outlet} (pos : 1 ≤ count)
      (le : count ≤ min (max sender.chunkSize 1) sender.remaining) :
    Ends sender outlet (.sent count, sender.advance count, after)
  | wouldBlock {after : Outlet} (held : after.stored = outlet.stored) :
    Ends sender outlet (.wouldBlock, sender, after)
  | fault {fault : Fault} {after : Outlet} (held : after.stored = outlet.stored) :
    Ends sender outlet (.fault fault, sender, after)
  | done : Ends sender outlet (.done, sender, outlet)

theorem Faithful.ends (h : sender.Faithful outlet) :
    sender.Ends outlet (sender.send outlet) := by
  by_cases hr : sender.remaining = 0
  · rw [send_of_remaining_eq_zero hr]
    exact .done
  · obtain ⟨hstored, htaken⟩ := h.honest.stored_write sender.chunk
    rw [size_chunk h.within] at htaken
    rw [Sender.send, if_neg hr]
    -- An attempt that took nothing stored nothing.
    have held (hnone : (outlet.write sender.chunk).1.last.taken = 0) :
        (outlet.write sender.chunk).2.stored = outlet.stored := by
      rw [hstored, hnone, ByteArray.extract_same, ByteArray.append_empty]
    split <;> rename_i heq <;> rw [heq] at held htaken
    · exact .fault (held rfl)
    · refine .sent (Nat.le_min.2 ⟨Nat.succ_pos _, chunkLength_pos hr⟩) ?_
      rw [Nat.min_comm (max sender.chunkSize 1)]
      exact Nat.min_le_right _ _
    · exact .wouldBlock (held rfl)
    · exact .fault (held rfl)

/-- A sender that is done stays as it is, and so does its outlet. -/
theorem sends_of_remaining_eq_zero (h : sender.remaining = 0) (calls : Nat) :
    sender.sends outlet calls = (sender, outlet) := by
  induction calls with
  | zero => rfl
  | succ calls ih => rw [sends, ih, send_of_remaining_eq_zero h]

/-- **A sender that can be resumed at any time**, with its outlet, on its way through a payload.

What was stored is the payload up to the cursor, every attempt was offered the slice whose turn it
was, and so will be the attempts of the next call, however many are interrupted.  That call ends as
calls do; it is done exactly at the end of the payload, and then nothing happens ever after. -/
structure Resumable (payload : ByteArray) (chunkSize : Nat) (sender : Sender) (outlet : Outlet) :
    Prop where
  payload_eq : sender.payload = payload
  chunkSize_eq : sender.chunkSize = chunkSize
  within : sender.position ≤ payload.size
  stored : outlet.stored = payload.extract 0 sender.position
  taken : Outlet.taken outlet.log = outlet.stored
  inTurn : Outlet.InTurn payload chunkSize outlet.log
  attempts : sender.remaining ≠ 0 → ∃ interruptions result, (sender.send outlet).2.2.log
    = ⟨sender.chunk, result⟩
      :: (List.replicate interruptions ⟨sender.chunk, .interrupted⟩ ++ outlet.log)
  ends : sender.Ends outlet (sender.send outlet)
  done : (sender.send outlet).1 = .done ↔ sender.position = payload.size
  finished : sender.position = payload.size →
    ∀ more, sender.sends outlet more = (sender, outlet)

theorem InStep.resumable (h : InStep payload chunkSize sender outlet) :
    Resumable payload chunkSize sender outlet := by
  have hwithin : sender.position ≤ payload.size := h.payload_eq ▸ h.faithful.within
  have hend : sender.remaining = 0 ↔ sender.position = payload.size := by
    rw [remaining, size, h.payload_eq]
    omega
  exact {
    payload_eq := h.payload_eq
    chunkSize_eq := h.chunkSize_eq
    within := hwithin
    stored := h.payload_eq ▸ h.faithful.stored
    taken := h.taken
    inTurn := h.inTurn
    attempts := fun hr => (log_send outlet hr).imp fun _ hlog => ⟨_, hlog⟩
    ends := h.faithful.ends
    done := fst_send_eq_done_iff.trans hend
    finished := fun hp => sends_of_remaining_eq_zero (hend.2 hp) }

/-- **A sender resumes exactly.**  After any number of calls over an honest outlet, however its
writes were cut short, blocked, interrupted or failed, no byte was skipped or repeated, and none
will be. -/
theorem resumes_exactly (payload : ByteArray) (chunkSize : Nat) {script : List WriteStep}
    (honest : ∀ step ∈ script, step.isHonest = true) (calls : Nat) :
    Resumable payload chunkSize ((ofPayload payload chunkSize).sends (.ofScript script) calls).1
      ((ofPayload payload chunkSize).sends (.ofScript script) calls).2 :=
  ((inStep_ofPayload payload chunkSize honest).sends calls).resumable

/-- Five bytes in chunks of two: one is taken, then comes a fault behind an interruption, then
nothing is taken, then one byte more. -/
def faultyScript : List WriteStep :=
  [.accept 1, .interrupted, .failed ⟨.other, "fault"⟩, .accept 0, .accept 1]

theorem resumes_exactly_after_faults :
    (∀ step ∈ faultyScript, step.isHonest = true)
      ∧ ((ofPayload ⟨#[1, 2, 3, 4, 5]⟩ 2).sends (.ofScript faultyScript) 4).1.position = 2
      ∧ Resumable ⟨#[1, 2, 3, 4, 5]⟩ 2
        ((ofPayload ⟨#[1, 2, 3, 4, 5]⟩ 2).sends (.ofScript faultyScript) 4).1
        ((ofPayload ⟨#[1, 2, 3, 4, 5]⟩ 2).sends (.ofScript faultyScript) 4).2 :=
  ⟨by decide, by decide +kernel, resumes_exactly _ _ (by decide) 4⟩

end Sender

end TrackServer
