import TrackServer.Proofs.Draining

/-!
# Proofs/Clamping — the cursor stays in the payload

An outlet may say that it took any number of bytes, also more than it was offered.  What a call of a
sender makes of that is one of four things (`Moves`): the cursor moves by at least one byte and by
no more than the chunk, or it stands.  As a chunk ends within the payload, so does the cursor
(`InBounds.send`), after any number of calls.

* `bounded_by_payload`: nothing that a sender computes leaves the payload.  So if the size of the
  payload is a machine word, every number is one; no sum wraps and no difference is cut off.
-/

namespace TrackServer.Sender

variable {payload : ByteArray} {chunkSize : ℕ} {sender after : Sender} {outlet : Outlet}
  {outcome : SendOutcome}

/-! ## One call -/

/-- **How a call moves the cursor**: by the bytes it says were sent, and otherwise not at all. -/
inductive Moves (sender : Sender) : SendOutcome → Sender → Prop
  | sent {count : ℕ} (pos : 1 ≤ count) (le : count ≤ sender.chunkLength) :
    Moves sender (.sent count) (sender.advance count)
  | wouldBlock : Moves sender .wouldBlock sender
  | fault {fault : Fault} : Moves sender (.fault fault) sender
  | done : Moves sender .done sender

/-- No outlet is believed beyond the chunk it was offered. -/
theorem moves_send (sender : Sender) (outlet : Outlet) :
    sender.Moves (sender.send outlet).1 (sender.send outlet).2.1 := by
  generalize hresult : sender.send outlet = result
  cases offers hresult with
  | done => exact .done
  | sent some =>
    exact .sent (Nat.le_min.2 ⟨Nat.succ_pos _, chunkLength_pos some⟩) (Nat.min_le_right _ _)
  | wouldBlock => exact .wouldBlock
  | refused | failed => exact .fault

theorem Moves.count_le (h : sender.Moves outcome after) {count : ℕ} (hs : outcome = .sent count) :
    (1 ≤ count ∧ count ≤ sender.chunkLength) ∧ after.position = sender.position + count := by
  cases h with
  | sent pos le =>
    obtain rfl := SendOutcome.sent.inj hs
    exact ⟨⟨pos, le⟩, rfl⟩
  | wouldBlock | fault | done => cases hs

theorem Moves.stands (h : sender.Moves outcome after) (hs : ∀ count, outcome ≠ .sent count) :
    after = sender := by
  cases h with
  | sent => exact absurd rfl (hs _)
  | wouldBlock | fault | done => rfl

theorem Moves.position_le (h : sender.Moves outcome after) : sender.position ≤ after.position := by
  cases h with
  | sent => exact Nat.le_add_right _ _
  | wouldBlock | fault | done => exact Nat.le_refl _

/-! ## In bounds -/

/-- **A sender in bounds**, on its way through a payload. -/
structure InBounds (payload : ByteArray) (chunkSize : ℕ) (sender : Sender) : Prop where
  payload_eq : sender.payload = payload
  chunkSize_eq : sender.chunkSize = chunkSize
  within : sender.position ≤ payload.size

theorem inBounds_ofPayload (payload : ByteArray) (chunkSize : ℕ) :
    InBounds payload chunkSize (ofPayload payload chunkSize) :=
  ⟨rfl, rfl, Nat.zero_le _⟩

theorem InBounds.total (h : InBounds payload chunkSize sender) :
    sender.position + sender.remaining = payload.size := by
  rw [remaining, size, h.payload_eq]
  exact Nat.add_sub_of_le h.within

/-- The next chunk ends within the payload. -/
theorem InBounds.chunk_le (h : InBounds payload chunkSize sender) :
    sender.position + sender.chunkLength ≤ payload.size :=
  Nat.le_trans (Nat.add_le_add_left sender.chunkLength_le _) (Nat.le_of_eq h.total)

/-- **Every move stays in bounds.** -/
theorem InBounds.move (h : InBounds payload chunkSize sender) (hm : sender.Moves outcome after) :
    InBounds payload chunkSize after := by
  cases hm with
  | sent _ le =>
    exact ⟨h.payload_eq, h.chunkSize_eq, Nat.le_trans (Nat.add_le_add_left le _) h.chunk_le⟩
  | wouldBlock | fault | done => exact h

theorem InBounds.sends (h : InBounds payload chunkSize sender) (outlet : Outlet) (calls : ℕ) :
    InBounds payload chunkSize (sender.sends outlet calls).1 := by
  induction calls with
  | zero => exact h
  | succ calls ih => exact ih.move (moves_send _ _)

/-- The cursor never goes back. -/
theorem position_le_sends (sender : Sender) (outlet : Outlet) {calls more : ℕ} (h : calls ≤ more) :
    (sender.sends outlet calls).1.position ≤ (sender.sends outlet more).1.position := by
  induction h with
  | refl => exact Nat.le_refl _
  | step _ ih => exact Nat.le_trans ih (moves_send _ _).position_le

/-- What a call attempts to write: each time the next chunk. -/
theorem offered_of_send (sender : Sender) (outlet : Outlet) :
    ∃ attempts, (sender.send outlet).2.2.log = attempts ++ outlet.log
      ∧ ∀ attempt ∈ attempts, sender.remaining ≠ 0 ∧ attempt.offered = sender.chunk := by
  by_cases hr : sender.remaining = 0
  · rw [send_of_remaining_eq_zero hr]
    exact ⟨[], rfl, nofun⟩
  · obtain ⟨interruptions, hlog⟩ := log_of_write (Prod.eta (outlet.write sender.chunk)).symm
    rw [snd_send hr]
    refine ⟨_, hlog, fun attempt hm => ⟨hr, ?_⟩⟩
    obtain rfl | hm := List.mem_cons.1 hm
    · rfl
    · rw [List.eq_of_mem_replicate hm]

/-! ## Whatever the socket claims -/

/-- **What a sender computes**, before and in a call: where the cursor stands, how much is left,
which slice of the payload a write attempt is offered, and where the cursor stands then. -/
structure Bounded (payload : ByteArray) (chunkSize : ℕ) (sender : Sender) (outlet : Outlet) :
    Prop where
  within : sender.position ≤ payload.size
  total : sender.position + sender.remaining = payload.size
  slice : sender.remaining ≠ 0 → 1 ≤ sender.chunkLength ∧ sender.chunkLength ≤ max chunkSize 1
  slice_le : sender.position + sender.chunkLength ≤ payload.size
  offered : ∃ attempts, (sender.send outlet).2.2.log = attempts ++ outlet.log
    ∧ ∀ attempt ∈ attempts, sender.remaining ≠ 0 ∧ attempt.offered
      = payload.extract sender.position (sender.position + sender.chunkLength)
  sent : ∀ count, (sender.send outlet).1 = .sent count →
    (1 ≤ count ∧ count ≤ sender.chunkLength)
      ∧ (sender.send outlet).2.1.position = sender.position + count
  stands : (∀ count, (sender.send outlet).1 ≠ .sent count) → (sender.send outlet).2.1 = sender

theorem InBounds.bounded (h : InBounds payload chunkSize sender) (outlet : Outlet) :
    Bounded payload chunkSize sender outlet where
  within := h.within
  total := h.total
  slice hr := ⟨chunkLength_pos hr, h.chunkSize_eq ▸ Nat.min_le_right _ _⟩
  slice_le := h.chunk_le
  offered := by
    rw [← h.payload_eq]
    exact offered_of_send sender outlet
  sent _ := (moves_send sender outlet).count_le
  stands := (moves_send sender outlet).stands

/-- **A sender is bounded by its payload**, after any number of calls and whatever the outlet says
it took in them; and its cursor never goes back. -/
theorem bounded_by_payload (payload : ByteArray) (chunkSize : ℕ) (outlet : Outlet) (calls : ℕ) :
    Bounded payload chunkSize ((ofPayload payload chunkSize).sends outlet calls).1
        ((ofPayload payload chunkSize).sends outlet calls).2
      ∧ ∀ earlier ≤ calls, ((ofPayload payload chunkSize).sends outlet earlier).1.position
        ≤ ((ofPayload payload chunkSize).sends outlet calls).1.position :=
  ⟨((inBounds_ofPayload payload chunkSize).sends outlet calls).bounded _,
    fun _ h => position_le_sends _ outlet h⟩

/-- Five bytes, chunks of a size of 0, and a socket that claims all that a machine word can say. -/
example : ((ofPayload ⟨#[1, 2, 3, 4, 5]⟩ 0).sends
    (.ofScript [.claim (2 ^ 64 - 1), .claim 0, .claim (2 ^ 64 - 1)]) 3).1.position = 2 := by
  decide +kernel

end TrackServer.Sender
