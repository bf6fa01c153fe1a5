import TrackServer.Connection

/-!
# Proofs/Sending — what the outlet stored is what the cursor passed

A sender and an honest outlet keep step (`Sender.Faithful`): the bytes stored are the payload up to
the cursor.  One chunk keeps that (`Faithful.send`), because the attempts at a chunk store exactly
the leading bytes that the last of them says it took (`stored_settle`); so draining keeps it
(`Faithful.drain`), wherever attempts were cut short, blocked, interrupted or failed.

* `remaining_of_drain_delivered`: draining says "delivered" only at the end of the payload.
* `log_of_drain_failed`: draining says "failed" only after an attempt that failed or took nothing.
* `log_of_drain_blocked`: it says "blocked" only after one that would have blocked, with bytes left.
-/

namespace TrackServer

/-! ## The attempts at one chunk

They end with the first that is not interrupted, and only that one stores anything. -/

/-- How many bytes a write says it took. -/
def WriteResult.taken : WriteResult → Nat
  | .wrote count => count
  | _ => 0

/-- A write that failed, or took nothing. -/
def WriteResult.IsFailure (result : WriteResult) : Prop :=
  result = .wrote 0 ∨ ∃ fault, result = .failed fault

/-- The result of the attempt that ended a settlement. -/
def Settlement.last : Settlement → WriteResult
  | .wrote count => .wrote count
  | .wouldBlock => .wouldBlock
  | .failed fault => .failed fault

/-- An honest step keeps the leading bytes that it says it took. -/
theorem WriteStep.kept_eq_extract {step : WriteStep} (h : step.isHonest = true)
    (offered : ByteArray) :
    step.kept offered = offered.extract 0 (step.result offered).taken
      ∧ (step.result offered).taken ≤ offered.size := by
  cases step with
  | accept limit => exact ⟨rfl, Nat.min_le_right limit offered.size⟩
  | claim count => simp [isHonest] at h
  | wouldBlock | interrupted | failed =>
    exact ⟨ByteArray.extract_same.symm, Nat.zero_le _⟩

namespace Outlet

/-- Every step to come keeps what it says it took. -/
def IsHonest (outlet : Outlet) : Prop :=
  ∀ step ∈ outlet.script, step.isHonest = true

section Settle

variable (chunk stored : ByteArray) (log : List WriteAttempt) (script : List WriteStep)

/-- The steps left are the last of those that were to come. -/
theorem script_settle : (settle chunk stored log script).2.script <:+ script := by
  fun_induction settle chunk stored log script with
  | case1 => exact List.suffix_rfl
  | case2 _ _ step rest _ _ _ ih => exact ih.trans (List.suffix_cons step rest)
  | case3 _ _ step rest | case4 _ _ step rest | case5 _ _ step rest =>
    exact List.suffix_cons step rest

/-- **Each attempt offered the chunk**: so many were interrupted, and the last one's result is how
the attempts ended. -/
theorem log_settle : ∃ interruptions, (settle chunk stored log script).2.log
    = ⟨chunk, (settle chunk stored log script).1.last⟩
      :: (List.replicate interruptions ⟨chunk, .interrupted⟩ ++ log) := by
  fun_induction settle chunk stored log script with
  | case1 => exact ⟨0, rfl⟩
  | case2 _ log step _ log' _ h ih =>
    obtain ⟨interruptions, hlog⟩ := ih
    have hlog' : log' = ⟨chunk, .interrupted⟩ :: log := congrArg (⟨chunk, ·⟩ :: log) h
    refine ⟨interruptions + 1, hlog.trans ?_⟩
    rw [hlog', List.replicate_succ', List.append_assoc, List.singleton_append]
  | case3 _ log step _ log' _ _ h | case4 _ log step _ log' _ h | case5 _ log step _ log' _ _ h =>
    exact ⟨0, congrArg (⟨chunk, ·⟩ :: log) h⟩

/-- **Honest attempts store what the last of them says it took**, and no more than the chunk. -/
theorem stored_settle (honest : ∀ step ∈ script, step.isHonest = true) :
    (settle chunk stored log script).2.stored
        = stored ++ chunk.extract 0 (settle chunk stored log script).1.last.taken
      ∧ (settle chunk stored log script).1.last.taken ≤ chunk.size := by
  fun_induction settle chunk stored log script with
  | case1 stored =>
    exact ⟨congrArg (stored ++ ·) ByteArray.extract_zero_size.symm, Nat.le_refl _⟩
  | case2 stored _ step rest _ stored' h ih =>
    -- An interrupted attempt took nothing, so it stored nothing.
    have hk : step.kept chunk = ByteArray.empty := by
      rw [(WriteStep.kept_eq_extract (honest step List.mem_cons_self) chunk).1, h]
      exact ByteArray.extract_same
    have hs : stored' = stored := (congrArg (stored ++ ·) hk).trans ByteArray.append_empty
    rw [hs] at ih ⊢
    exact ih fun step hm => honest step (List.mem_cons_of_mem _ hm)
  | case3 _ _ step _ _ _ _ h | case4 _ _ step _ _ _ h | case5 _ _ step _ _ _ _ h =>
    have hk := WriteStep.kept_eq_extract (honest step List.mem_cons_self) chunk
    rw [h] at hk
    exact ⟨congrArg (_ ++ ·) hk.1, hk.2⟩

end Settle

variable {outlet : Outlet}

/-- The attempts of a write, and how the last of them ended. -/
theorem log_write (chunk : ByteArray) : ∃ interruptions, (outlet.write chunk).2.log
    = ⟨chunk, (outlet.write chunk).1.last⟩
      :: (List.replicate interruptions ⟨chunk, .interrupted⟩ ++ outlet.log) :=
  log_settle chunk outlet.stored outlet.log outlet.script

theorem IsHonest.write (h : outlet.IsHonest) (chunk : ByteArray) :
    (outlet.write chunk).2.IsHonest := fun step hs =>
  h step ((script_settle chunk outlet.stored outlet.log outlet.script).subset hs)

/-- **An honest outlet stores what it says it took** of the chunk it is offered. -/
theorem IsHonest.stored_write (h : outlet.IsHonest) (chunk : ByteArray) :
    (outlet.write chunk).2.stored
        = outlet.stored ++ chunk.extract 0 (outlet.write chunk).1.last.taken
      ∧ (outlet.write chunk).1.last.taken ≤ chunk.size :=
  stored_settle chunk outlet.stored outlet.log outlet.script h

end Outlet

/-! ## One chunk of a payload -/

namespace Sender

/-- **The outlet stored what the cursor passed**, and will be honest about what it takes. -/
structure Faithful (sender : Sender) (outlet : Outlet) : Prop where
  honest : outlet.IsHonest
  within : sender.position ≤ sender.size
  stored : outlet.stored = sender.payload.extract 0 sender.position

variable {sender : Sender} {outlet : Outlet}

theorem size_chunk (h : sender.position ≤ sender.size) :
    sender.chunk.size = sender.chunkLength := by
  rw [chunk, ByteArray.size_extract]
  unfold chunkLength remaining size at *
  omega

/-- The payload up to the cursor, and leading bytes of the next chunk, are the payload up to the
cursor moved on. -/
theorem extract_append_chunk (count : Nat) (h : count ≤ sender.chunkLength) :
    sender.payload.extract 0 sender.position ++ sender.chunk.extract 0 count
      = sender.payload.extract 0 (sender.position + count) := by
  rw [chunk, ByteArray.extract_extract, Nat.add_zero, ByteArray.extract_append_extract]
  congr 1
  omega

theorem send_of_remaining_eq_zero (h : sender.remaining = 0) :
    sender.send outlet = (.done, sender, outlet) := if_pos h

/-- **What one chunk changes**: the cursor moves by what the outlet says it took, never past the
chunk. -/
theorem snd_send (h : sender.remaining ≠ 0) : (sender.send outlet).2
    = (sender.advance (min (outlet.write sender.chunk).1.last.taken sender.chunkLength),
        (outlet.write sender.chunk).2) := by
  rw [send, if_neg h]
  split <;> rename_i heq <;> rw [heq] <;>
    simp [Settlement.last, WriteResult.taken, advance]

/-- **One chunk keeps step**: the cursor moves by what the outlet took and stored. -/
theorem Faithful.send (h : sender.Faithful outlet) :
    (sender.send outlet).2.1.Faithful (sender.send outlet).2.2 := by
  by_cases hr : sender.remaining = 0
  · rwa [send_of_remaining_eq_zero hr]
  · obtain ⟨hstored, htaken⟩ := h.honest.stored_write sender.chunk
    rw [size_chunk h.within] at htaken
    rw [snd_send hr, Nat.min_eq_left htaken]
    refine ⟨h.honest.write sender.chunk, ?_, ?_⟩
    · have := h.within
      unfold chunkLength remaining at htaken
      simp only [advance, size] at *
      omega
    · rw [hstored, h.stored, extract_append_chunk _ htaken]
      rfl

/-- A sender sends one payload. -/
theorem payload_send : (sender.send outlet).2.1.payload = sender.payload := by
  by_cases hr : sender.remaining = 0
  · rw [send_of_remaining_eq_zero hr]
  · rw [snd_send hr]
    rfl

/-- A sender says "done" exactly when nothing is left. -/
theorem fst_send_eq_done_iff : (sender.send outlet).1 = .done ↔ sender.remaining = 0 := by
  constructor
  · intro h
    by_cases hr : sender.remaining = 0
    · exact hr
    · rw [send, if_neg hr] at h
      split at h <;> cases h
  · intro h
    rw [send_of_remaining_eq_zero h]

/-- A sender says "fault" only after an attempt that failed or took nothing. -/
theorem log_of_send_fault {fault : Fault} (h : (sender.send outlet).1 = .fault fault) :
    ∃ attempt earlier, (sender.send outlet).2.2.log = attempt :: earlier
      ∧ attempt.result.IsFailure := by
  have hr : sender.remaining ≠ 0 := fun hr => by
    rw [fst_send_eq_done_iff.2 hr] at h
    cases h
  obtain ⟨interruptions, hlog⟩ := outlet.log_write sender.chunk
  rw [snd_send hr]
  refine ⟨_, _, hlog, ?_⟩
  rw [send, if_neg hr] at h
  split at h
  · next heq => exact Or.inl (by rw [heq]; rfl)
  · simp at h
  · simp at h
  · next heq => exact Or.inr ⟨_, by rw [heq]; rfl⟩

/-- A sender says "would block" only after an attempt that would have blocked, and with bytes still
to send. -/
theorem log_of_send_wouldBlock (h : (sender.send outlet).1 = .wouldBlock) :
    (∃ attempt earlier, (sender.send outlet).2.2.log = attempt :: earlier
        ∧ attempt.result = .wouldBlock)
      ∧ (sender.send outlet).2.1.remaining ≠ 0 := by
  have hr : sender.remaining ≠ 0 := fun hr => by
    rw [fst_send_eq_done_iff.2 hr] at h
    cases h
  have hlast : (outlet.write sender.chunk).1 = .wouldBlock := by
    rw [send, if_neg hr] at h
    split at h
    · cases h
    · cases h
    · next heq => rw [heq]
    · cases h
  obtain ⟨interruptions, hlog⟩ := outlet.log_write sender.chunk
  rw [snd_send hr, hlast]
  refine ⟨⟨_, _, hlog, by rw [hlast]; rfl⟩, ?_⟩
  simpa [Settlement.last, WriteResult.taken, advance, remaining, size] using hr

/-! ## Draining -/

/-- Draining is sending chunk by chunk: what every chunk keeps, draining keeps. -/
theorem drain_induct {P : Sender → Outlet → Prop}
    (step : ∀ sender outlet, P sender outlet → P (sender.send outlet).2.1 (sender.send outlet).2.2)
    (h : P sender outlet) : P (sender.drain outlet).2.1 (sender.drain outlet).2.2 := by
  fun_induction drain sender outlet with
  | case1 sender outlet count sender' outlet' heq ih =>
    have := step _ _ h
    rw [heq] at this
    exact ih this
  | case2 sender outlet sender' outlet' heq | case3 sender outlet sender' outlet' heq
  | case4 sender outlet fault sender' outlet' heq =>
    have := step _ _ h
    rwa [heq] at this

theorem Faithful.drain (h : sender.Faithful outlet) :
    (sender.drain outlet).2.1.Faithful (sender.drain outlet).2.2 :=
  drain_induct (fun _ _ h => h.send) h

theorem payload_drain : (sender.drain outlet).2.1.payload = sender.payload :=
  drain_induct (P := fun now _ => now.payload = sender.payload)
    (fun _ _ h => payload_send.trans h) rfl

/-- **Delivered means all of it.** -/
theorem remaining_of_drain_delivered (h : (sender.drain outlet).1 = .delivered) :
    (sender.drain outlet).2.1.remaining = 0 := by
  fun_induction drain sender outlet with
  | case1 _ _ _ _ _ _ ih => exact ih h
  | case2 | case4 => cases h
  | case3 sender outlet sender' outlet' heq =>
    have hr : sender.remaining = 0 := fst_send_eq_done_iff.1 (congrArg Prod.fst heq)
    rw [send_of_remaining_eq_zero hr] at heq
    cases heq
    exact hr

/-- …so a faithful outlet has then stored the payload. -/
theorem Faithful.stored_of_delivered (h : sender.Faithful outlet)
    (hd : (sender.drain outlet).1 = .delivered) :
    (sender.drain outlet).2.2.stored = sender.payload := by
  have hr := remaining_of_drain_delivered hd
  have hw := h.drain.within
  have hend : (sender.drain outlet).2.1.position = sender.payload.size := by
    unfold remaining size at *
    rw [payload_drain] at *
    omega
  rw [h.drain.stored, hend, payload_drain]
  exact ByteArray.extract_zero_size

/-- **Failed means an attempt that failed**, or took nothing. -/
theorem log_of_drain_failed {fault : Fault} (h : (sender.drain outlet).1 = .failed fault) :
    ∃ attempt earlier, (sender.drain outlet).2.2.log = attempt :: earlier
      ∧ attempt.result.IsFailure := by
  fun_induction drain sender outlet with
  | case1 _ _ _ _ _ _ ih => exact ih h
  | case2 | case3 => cases h
  | case4 sender outlet fault sender' outlet' heq =>
    have := log_of_send_fault (congrArg Prod.fst heq)
    rwa [heq] at this

/-- **Blocked means an attempt that would have blocked**, with bytes still to send. -/
theorem log_of_drain_blocked (h : (sender.drain outlet).1 = .blocked) :
    (∃ attempt earlier, (sender.drain outlet).2.2.log = attempt :: earlier
        ∧ attempt.result = .wouldBlock)
      ∧ (sender.drain outlet).2.1.remaining ≠ 0 := by
  fun_induction drain sender outlet with
  | case1 _ _ _ _ _ _ ih => exact ih h
  | case2 sender outlet sender' outlet' heq =>
    have := log_of_send_wouldBlock (congrArg Prod.fst heq)
    rwa [heq] at this
  | case3 | case4 => cases h

end Sender

end TrackServer
