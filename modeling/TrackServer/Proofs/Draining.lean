import TrackServer.Proofs.Endless
import TrackServer.Proofs.Resuming

/-!
# Proofs/Draining — draining a payload comes to an end, and not too early

How the attempts at a chunk end tells how a call of a sender does (`Offers`).  Draining strings such
calls together, and `Drains` says what is attempted then: chunk after chunk is taken, at least in
part, until nothing is left or an attempt would block or fails.  As each chunk taken leaves fewer
bytes, there are no more attempts than bytes, interrupted ones apart (`Drains.countP_le`); and if
all is taken that is offered, all chunks are full ones but the last (`Drains.sizes`).

* `drain_extend`: so draining ends over as many steps as there are bytes, whatever comes behind.
* `output_drains`: what a call of output attempts, what it answers, and that it ends.
-/

namespace TrackServer

namespace Sender

variable {sender after : Sender} {outlet : Outlet} {how : Drained} {attempts : List WriteAttempt}

/-! ## One call -/

/-- **What a call of a sender comes to.** -/
inductive Offers (sender : Sender) (outlet : Outlet) : SendOutcome × Sender × Outlet → Prop
  | done (nothing : sender.remaining = 0) : Offers sender outlet (.done, sender, outlet)
  | sent {count : ℕ} {written : Outlet} (some : sender.remaining ≠ 0)
      (write : outlet.write sender.chunk = (.wrote (count + 1), written)) :
    Offers sender outlet (.sent (min (count + 1) sender.chunkLength),
      sender.advance (min (count + 1) sender.chunkLength), written)
  | wouldBlock {written : Outlet} (some : sender.remaining ≠ 0)
      (write : outlet.write sender.chunk = (.wouldBlock, written)) :
    Offers sender outlet (.wouldBlock, sender, written)
  | refused {written : Outlet} (some : sender.remaining ≠ 0)
      (write : outlet.write sender.chunk = (.wrote 0, written)) :
    Offers sender outlet (.fault nothingTaken, sender, written)
  | failed {fault : Fault} {written : Outlet} (some : sender.remaining ≠ 0)
      (write : outlet.write sender.chunk = (.failed fault, written)) :
    Offers sender outlet (.fault fault, sender, written)

theorem offers {result : SendOutcome × Sender × Outlet} (h : sender.send outlet = result) :
    Offers sender outlet result := by
  subst h
  by_cases hr : sender.remaining = 0
  · rw [send_of_remaining_eq_zero hr]
    exact .done hr
  · rw [send, if_neg hr]
    split
    · next write => exact .refused hr write
    · next write => exact .sent hr write
    · next write => exact .wouldBlock hr write
    · next write => exact .failed hr write

/-! ## Draining, call by call -/

section Drain

variable {sender' : Sender} {outlet' : Outlet}

theorem drain_of_sent {count : ℕ} (h : sender.send outlet = (.sent count, sender', outlet')) :
    sender.drain outlet = sender'.drain outlet' := by
  rw [drain]
  split <;> simp_all

theorem drain_of_wouldBlock (h : sender.send outlet = (.wouldBlock, sender', outlet')) :
    sender.drain outlet = (.blocked, sender', outlet') := by
  rw [drain]
  split <;> simp_all

theorem drain_of_done (h : sender.send outlet = (.done, sender', outlet')) :
    sender.drain outlet = (.delivered, sender', outlet') := by
  rw [drain]
  split <;> simp_all

theorem drain_of_fault {fault : Fault} (h : sender.send outlet = (.fault fault, sender', outlet')) :
    sender.drain outlet = (.failed fault, sender', outlet') := by
  rw [drain]
  split <;> simp_all

end Drain

/-! ## What draining attempts -/

/-- The attempts at one chunk, newest first: so many were interrupted, then one was not. -/
def attemptsAt (chunk : ByteArray) (interruptions : ℕ) (result : WriteResult) :
    List WriteAttempt :=
  ⟨chunk, result⟩ :: List.replicate interruptions ⟨chunk, .interrupted⟩

theorem log_of_write {chunk : ByteArray} {settlement : Settlement} {written : Outlet}
    (h : outlet.write chunk = (settlement, written)) :
    ∃ interruptions,
      written.log = attemptsAt chunk interruptions settlement.last ++ outlet.log := by
  obtain ⟨interruptions, hlog⟩ := outlet.log_write chunk
  rw [h] at hlog
  exact ⟨interruptions, hlog⟩

/-- **What draining attempts**, newest first, and what it leaves of the sender. -/
inductive Drains : Sender → Drained → Sender → List WriteAttempt → Prop
  | delivered {sender : Sender} (nothing : sender.remaining = 0) :
    Drains sender .delivered sender []
  | blocked {sender : Sender} (some : sender.remaining ≠ 0) (interruptions : ℕ) :
    Drains sender .blocked sender (attemptsAt sender.chunk interruptions .wouldBlock)
  | failed {sender : Sender} {fault : Fault} {result : WriteResult} (some : sender.remaining ≠ 0)
      (interruptions : ℕ) (failure : result.IsFailure) :
    Drains sender (.failed fault) sender (attemptsAt sender.chunk interruptions result)
  | sent {sender after : Sender} {how : Drained} {attempts : List WriteAttempt}
      (some : sender.remaining ≠ 0) (interruptions count : ℕ)
      (more : Drains (sender.advance (min (count + 1) sender.chunkLength)) how after attempts) :
    Drains sender how after
      (attempts ++ attemptsAt sender.chunk interruptions (.wrote (count + 1)))

theorem drains (sender : Sender) (outlet : Outlet) :
    ∃ attempts, (sender.drain outlet).2.2.log = attempts ++ outlet.log
      ∧ Drains sender (sender.drain outlet).1 (sender.drain outlet).2.1 attempts := by
  fun_induction drain sender outlet with
  | case1 sender outlet count sender' outlet' heq ih =>
    obtain ⟨attempts, hlog, hdrains⟩ := ih
    cases offers heq with
    | sent some write =>
      obtain ⟨interruptions, hwrite⟩ := log_of_write write
      refine ⟨_, ?_, .sent some interruptions _ hdrains⟩
      rw [hlog, hwrite, List.append_assoc]
      rfl
  | case2 sender outlet sender' outlet' heq =>
    cases offers heq with
    | wouldBlock some write =>
      obtain ⟨interruptions, hwrite⟩ := log_of_write write
      exact ⟨_, hwrite, .blocked some interruptions⟩
  | case3 sender outlet sender' outlet' heq =>
    cases offers heq with
    | done nothing => exact ⟨[], rfl, .delivered nothing⟩
  | case4 sender outlet fault sender' outlet' heq =>
    cases offers heq with
    | refused some write =>
      obtain ⟨interruptions, hwrite⟩ := log_of_write write
      exact ⟨_, hwrite, .failed some interruptions (.inl rfl)⟩
    | failed some write =>
      obtain ⟨interruptions, hwrite⟩ := log_of_write write
      exact ⟨_, hwrite, .failed some interruptions (.inr ⟨_, rfl⟩)⟩

/-! ## How many attempts -/

/-- What was taken by some attempts after others. -/
theorem size_taken_append (attempts earlier : List WriteAttempt) :
    (Outlet.taken (attempts ++ earlier)).size
      = (Outlet.taken attempts).size + (Outlet.taken earlier).size := by
  induction attempts with
  | nil => exact (Nat.zero_add _).symm
  | cons attempt rest ih =>
    rw [List.cons_append, Outlet.taken, Outlet.taken, ByteArray.size_append, ByteArray.size_append,
      ih, Nat.add_right_comm]

/-- Of the attempts at a chunk only the last takes any of it… -/
theorem size_taken_attemptsAt (chunk : ByteArray) (interruptions : ℕ) (result : WriteResult) :
    (Outlet.taken (attemptsAt chunk interruptions result)).size = min result.taken chunk.size := by
  have hnone := @Outlet.taken_interrupted [] chunk interruptions
  rw [List.append_nil] at hnone
  rw [attemptsAt, Outlet.taken, hnone, ByteArray.size_append, ByteArray.size_extract, Nat.sub_zero]
  exact Nat.zero_add _

/-- …and only the last attempt is no interruption. -/
theorem countP_attemptsAt (chunk : ByteArray) (interruptions : ℕ) {result : WriteResult}
    (h : result ≠ .interrupted) :
    (attemptsAt chunk interruptions result).countP (·.result != .interrupted) = 1 := by
  simp [attemptsAt, h]

theorem ne_interrupted_of_isFailure {result : WriteResult} (h : result.IsFailure) :
    result ≠ .interrupted := by
  obtain rfl | ⟨fault, rfl⟩ := h <;> exact nofun

/-- Bytes are left only before the end. -/
theorem position_le_of_remaining (h : sender.remaining ≠ 0) : sender.position ≤ sender.size := by
  unfold remaining at h
  omega

theorem chunkLength_le (sender : Sender) : sender.chunkLength ≤ sender.remaining :=
  Nat.min_le_left _ _

theorem remaining_advance (count : ℕ) :
    (sender.advance count).remaining = sender.remaining - count :=
  (Nat.sub_sub _ _ _).symm

theorem taken_of_isFailure {result : WriteResult} (h : result.IsFailure) : result.taken = 0 := by
  obtain rfl | ⟨fault, rfl⟩ := h <;> rfl

/-- **What is attempted is no more than there are bytes**, interruptions apart. -/
theorem Drains.countP_le (h : Drains sender how after attempts) :
    attempts.countP (·.result != .interrupted) ≤ sender.remaining := by
  induction h with
  | delivered => exact Nat.zero_le _
  | @blocked sender some interruptions =>
    have hlast : WriteResult.wouldBlock ≠ .interrupted := nofun
    rw [countP_attemptsAt sender.chunk interruptions hlast]
    exact Nat.pos_of_ne_zero some
  | @failed sender _ _ some interruptions failure =>
    rw [countP_attemptsAt sender.chunk interruptions (ne_interrupted_of_isFailure failure)]
    exact Nat.pos_of_ne_zero some
  | @sent sender _ _ _ some interruptions count _ ih =>
    have hlast : WriteResult.wrote (count + 1) ≠ .interrupted := nofun
    have hpos := chunkLength_pos some
    rw [remaining_advance] at ih
    rw [List.countP_append, countP_attemptsAt sender.chunk interruptions hlast]
    omega

/-- **What was accepted and what is left** are what there was to send. -/
theorem Drains.remaining_add (h : Drains sender how after attempts) :
    after.remaining + (Outlet.taken attempts).size = sender.remaining := by
  induction h with
  | delivered => rfl
  | blocked =>
    have htaken : WriteResult.wouldBlock.taken = 0 := rfl
    rw [size_taken_attemptsAt, htaken, Nat.zero_min, Nat.add_zero]
  | failed _ _ failure =>
    rw [size_taken_attemptsAt, taken_of_isFailure failure, Nat.zero_min, Nat.add_zero]
  | @sent sender _ _ _ some interruptions count _ ih =>
    have hle := sender.chunkLength_le
    rw [remaining_advance] at ih
    rw [size_taken_append, size_taken_attemptsAt, size_chunk (position_le_of_remaining some),
      WriteResult.taken]
    omega

/-- Nothing is left once all is delivered. -/
theorem Drains.remaining_of_delivered (h : Drains sender how after attempts)
    (hd : how = .delivered) : after.remaining = 0 := by
  induction h with
  | delivered nothing => exact nothing
  | blocked | failed => cases hd
  | sent _ _ _ _ ih => exact ih hd

/-! ## How draining ends -/

/-- What is needed next when draining ends. -/
def next : Drained → Next
  | .blocked => .write
  | .delivered | .failed _ => .close

/-- **How draining ends**, told by its attempts and the bytes there were to send: it would block,
with bytes left; or it is through, with all of them accepted or after an attempt that failed or took
nothing. -/
inductive DrainEnds (remaining : ℕ) : Next → List WriteAttempt → Prop
  | blocked {last : WriteAttempt} {earlier : List WriteAttempt}
      (blocked : last.result = .wouldBlock)
      (short : (Outlet.taken (last :: earlier)).size < remaining) :
    DrainEnds remaining .write (last :: earlier)
  | complete {attempts : List WriteAttempt} (all : (Outlet.taken attempts).size = remaining) :
    DrainEnds remaining .close attempts
  | failed {last : WriteAttempt} {earlier : List WriteAttempt} (failure : last.result.IsFailure) :
    DrainEnds remaining .close (last :: earlier)

theorem Drains.ends (h : Drains sender how after attempts) :
    DrainEnds sender.remaining (next how) attempts := by
  induction h with
  | delivered nothing => exact .complete nothing.symm
  | @blocked sender some interruptions =>
    refine .blocked rfl ?_
    rw [← attemptsAt, size_taken_attemptsAt]
    exact Nat.lt_of_le_of_lt (Nat.min_le_left _ _) (Nat.pos_of_ne_zero some)
  | failed _ _ failure => exact .failed failure
  | @sent sender _ how attempts some interruptions count _ ih =>
    -- The first chunk is accepted up to its end, the rest as the calls after it say.
    have hfirst : (Outlet.taken
          (attemptsAt sender.chunk interruptions (.wrote (count + 1)))).size
        = min (count + 1) sender.chunkLength := by
      rw [size_taken_attemptsAt, size_chunk (position_le_of_remaining some), WriteResult.taken]
    have hle := sender.chunkLength_le
    rw [remaining_advance] at ih
    generalize next how = answer at ih
    cases ih with
    | @blocked last earlier blocked short =>
      have hsum := size_taken_append (last :: earlier)
        (attemptsAt sender.chunk interruptions (.wrote (count + 1)))
      refine .blocked blocked (Nat.lt_of_le_of_lt (Nat.le_of_eq hsum) ?_)
      omega
    | complete all =>
      refine .complete ?_
      rw [size_taken_append, hfirst]
      omega
    | failed failure => exact .failed failure

/-! ## Chunks of full size -/

/-- The sizes of the chunks that so many bytes are sent in, last first: full ones, and what is left
over. -/
def chunkSizes (chunk remaining : ℕ) : List ℕ :=
  (if remaining % chunk = 0 then [] else [remaining % chunk])
    ++ List.replicate (remaining / chunk) chunk

theorem chunkSizes_zero (chunk : ℕ) : chunkSizes chunk 0 = [] := by
  simp [chunkSizes]

/-- **The first chunk is a full one**, or all there is. -/
theorem chunkSizes_of_ne_zero {chunk remaining : ℕ} (hc : 0 < chunk) (hr : remaining ≠ 0) :
    chunkSizes chunk remaining
      = chunkSizes chunk (remaining - min remaining chunk) ++ [min remaining chunk] := by
  by_cases hlt : remaining < chunk
  · rw [Nat.min_eq_left (Nat.le_of_lt hlt), Nat.sub_self, chunkSizes_zero, chunkSizes,
      Nat.mod_eq_of_lt hlt, Nat.div_eq_of_lt hlt, if_neg hr]
    rfl
  · have hle := Nat.le_of_not_lt hlt
    rw [Nat.min_eq_right hle, chunkSizes, chunkSizes, Nat.mod_eq_sub_mod hle,
      Nat.div_eq_sub_div hc hle, List.replicate_succ', List.append_assoc]

/-- There are as many chunks as the bytes divided by the chunk size, rounded up. -/
theorem length_chunkSizes {chunk : ℕ} (hc : 0 < chunk) (remaining : ℕ) :
    (chunkSizes chunk remaining).length = (remaining + chunk - 1) / chunk := by
  obtain ⟨full, part, hpart, rfl⟩ : ∃ full part, part < chunk ∧ remaining = chunk * full + part :=
    ⟨_, _, Nat.mod_lt _ hc, (Nat.div_add_mod remaining chunk).symm⟩
  have hdiv : (chunk * full + part) / chunk = full := by
    rw [Nat.mul_add_div hc, Nat.div_eq_of_lt hpart, Nat.add_zero]
  have hround : (chunk * full + part + chunk - 1) / chunk = full + (part + chunk - 1) / chunk := by
    rw [← Nat.mul_add_div hc]
    congr 1
    omega
  rw [chunkSizes, List.length_append, List.length_replicate, Nat.mul_add_mod,
    Nat.mod_eq_of_lt hpart, hdiv, hround, Nat.add_comm]
  congr 1
  by_cases hp : part = 0
  · rw [if_pos hp, Nat.div_eq_of_lt (by omega)]
    rfl
  · have hone : (part + chunk - 1) / chunk = 1 := Nat.div_eq_of_lt_le (by omega) (by omega)
    rw [if_neg hp, hone]
    rfl

/-- Ten bytes in chunks of four. -/
example : chunkSizes 4 10 = [2, 4, 4] := by decide

/-- Every attempt took all that it was offered. -/
def AllAccepted (attempts : List WriteAttempt) : Prop :=
  ∀ attempt ∈ attempts, attempt.offered.size ≤ attempt.result.taken

/-- An interruption took nothing that it was offered, so there was none. -/
theorem allAccepted_attemptsAt {chunk : ByteArray} {interruptions : ℕ} {result : WriteResult}
    (hc : chunk.size ≠ 0) (h : AllAccepted (attemptsAt chunk interruptions result)) :
    chunk.size ≤ result.taken ∧ interruptions = 0 := by
  refine ⟨h _ List.mem_cons_self, ?_⟩
  by_contra hi
  have htaken := h ⟨chunk, .interrupted⟩
    (List.mem_cons_of_mem _ (List.mem_replicate.2 ⟨hi, rfl⟩))
  exact hc (Nat.le_zero.1 htaken)

/-- **If all is accepted, all is delivered**, in chunks of full size but the last. -/
theorem Drains.sizes (h : Drains sender how after attempts) (hall : AllAccepted attempts) :
    how = .delivered ∧ attempts.map (·.offered.size)
      = chunkSizes (max sender.chunkSize 1) sender.remaining := by
  induction h with
  | delivered nothing => exact ⟨rfl, by rw [nothing, chunkSizes_zero]; rfl⟩
  | blocked some =>
    have hsome := size_chunk_ne_zero (position_le_of_remaining some) some
    exact absurd (Nat.le_zero.1 (allAccepted_attemptsAt hsome hall).1) hsome
  | failed some _ failure =>
    have hsome := size_chunk_ne_zero (position_le_of_remaining some) some
    have htaken := (allAccepted_attemptsAt hsome hall).1
    rw [taken_of_isFailure failure] at htaken
    exact absurd (Nat.le_zero.1 htaken) hsome
  | @sent sender _ _ _ some interruptions count _ ih =>
    have hsome := size_chunk_ne_zero (position_le_of_remaining some) some
    have hchunk := size_chunk (position_le_of_remaining some)
    obtain ⟨hmore, hfirst⟩ := List.forall_mem_append.1 hall
    obtain ⟨htaken, rfl⟩ := allAccepted_attemptsAt hsome hfirst
    obtain ⟨rfl, hsizes⟩ := ih hmore
    have hfull : min (count + 1) sender.chunkLength = sender.chunkLength :=
      Nat.min_eq_right (hchunk ▸ htaken)
    rw [hfull, remaining_advance] at hsizes
    refine ⟨rfl, ?_⟩
    rw [List.map_append, hsizes, chunkSizes_of_ne_zero (Nat.le_max_right _ _) some]
    exact congrArg (_ ++ [·]) hchunk

end Sender

/-! ## Steps that are not reached -/

namespace Outlet

section Settle

variable (chunk stored : ByteArray) (log : List WriteAttempt) {script : List WriteStep}

/-- **The attempts at a chunk end at the first step that is no interruption**, whatever comes
behind. -/
theorem settle_append (h : 0 < script.countP (· != .interrupted)) (more : List WriteStep) :
    settle chunk stored log (script ++ more)
      = ((settle chunk stored log script).1, (settle chunk stored log script).2.extend more) := by
  induction script generalizing stored log with
  | nil => cases h
  | cons step rest ih =>
    cases step with
    | accept | claim | wouldBlock | failed => rfl
    | interrupted => exact ih _ _ h

/-- One such step is used up. -/
theorem countP_script_settle (h : 0 < script.countP (· != .interrupted)) :
    (settle chunk stored log script).2.script.countP (· != .interrupted) + 1
      = script.countP (· != .interrupted) := by
  induction script generalizing stored log with
  | nil => cases h
  | cons step rest ih =>
    cases step with
    | accept | claim | wouldBlock | failed => exact (List.countP_cons_of_pos rfl).symm
    | interrupted => exact ih _ _ h

end Settle

end Outlet

namespace Sender

variable {sender : Sender} {outlet : Outlet}

/-- A call ends over one step that is no interruption, or does not need it. -/
theorem send_extend (enough : sender.remaining ≤ outlet.script.countP (· != .interrupted))
    (more : List WriteStep) :
    sender.send (outlet.extend more)
      = ((sender.send outlet).1, (sender.send outlet).2.1,
        (sender.send outlet).2.2.extend more) := by
  by_cases hr : sender.remaining = 0
  · rw [send_of_remaining_eq_zero hr, send_of_remaining_eq_zero hr]
  · have hpos : 0 < outlet.script.countP (· != .interrupted) := by omega
    have hwrite : (outlet.extend more).write sender.chunk
        = ((outlet.write sender.chunk).1, (outlet.write sender.chunk).2.extend more) :=
      Outlet.settle_append sender.chunk outlet.stored outlet.log hpos more
    rw [send, if_neg hr, send, if_neg hr, hwrite]
    rcases outlet.write sender.chunk with ⟨settlement, written⟩
    cases settlement with
    | wrote count => cases count <;> rfl
    | wouldBlock | failed => rfl

/-- **Draining ends over as many steps as there are bytes**, interruptions apart, whatever comes
behind. -/
theorem drain_extend (enough : sender.remaining ≤ outlet.script.countP (· != .interrupted))
    (more : List WriteStep) :
    sender.drain (outlet.extend more)
      = ((sender.drain outlet).1, (sender.drain outlet).2.1,
        (sender.drain outlet).2.2.extend more) := by
  fun_induction drain sender outlet with
  | case1 sender outlet count sender' outlet' heq ih =>
    have hextend := send_extend enough more
    rw [heq] at hextend
    rw [drain_of_sent hextend]
    refine ih ?_
    cases offers heq with
    | sent some write =>
      have hpos := chunkLength_pos some
      have hcount := Outlet.countP_script_settle sender.chunk outlet.stored outlet.log
        (Nat.lt_of_lt_of_le (Nat.pos_of_ne_zero some) enough)
      have hscript : (Outlet.settle sender.chunk outlet.stored outlet.log outlet.script).2
          = outlet' := congrArg Prod.snd write
      rw [hscript] at hcount
      rw [remaining_advance]
      omega
  | case2 sender outlet sender' outlet' heq =>
    have hextend := send_extend enough more
    rw [heq] at hextend
    exact drain_of_wouldBlock hextend
  | case3 sender outlet sender' outlet' heq =>
    have hextend := send_extend enough more
    rw [heq] at hextend
    exact drain_of_done hextend
  | case4 sender outlet fault sender' outlet' heq =>
    have hextend := send_extend enough more
    rw [heq] at hextend
    exact drain_of_fault hextend

end Sender

namespace Connection

variable {connection : Connection} {sender : Sender}

/-! ## Calls of output -/

theorem afterDrain_extendScripts (how : Drained) (sender : Sender) (outlet : Outlet)
    (more : List WriteStep) :
    (connection.extendScripts [] more).afterDrain (how, sender, outlet.extend more)
      = ((connection.afterDrain (how, sender, outlet)).1,
        (connection.afterDrain (how, sender, outlet)).2.extendScripts [] more) := by
  cases how with
  | blocked | delivered | failed => rfl

/-- **A call of output leaves alone what comes behind enough steps.** -/
theorem handleOutput_extendScripts (hs : connection.phase = .sending sender)
    (enough : sender.remaining ≤ connection.socket.outlet.script.countP (· != .interrupted))
    (more : List WriteStep) :
    (connection.extendScripts [] more).handleOutput
      = (connection.handleOutput.1, connection.handleOutput.2.extendScripts [] more) := by
  have hs' : (connection.extendScripts [] more).phase = .sending sender := hs
  rw [handleOutput_of_sending hs, handleOutput_of_sending hs', ← afterDrain_extendScripts,
    ← Sender.drain_extend enough]
  rfl

/-- **Every call of output ends**, whatever the socket goes on to do, if interruptions do not go on
for ever. -/
theorem endsOutput_of_sending (hs : connection.phase = .sending sender) {steps : ℕ → WriteStep}
    (relents : ∀ n, ∃ m, n ≤ m ∧ steps m ≠ .interrupted) : connection.EndsOutput steps := by
  have htest : ∀ n, ∃ m, n ≤ m ∧ (steps m != .interrupted) = true := by simpa using relents
  obtain ⟨count, hcount⟩ :=
    @exists_le_countP_beginning _ (· != .interrupted) steps htest sender.remaining
  let facing := connection.extendScripts [] (beginning steps count)
  have hscript : beginning steps count <:+ facing.socket.outlet.script := List.suffix_append _ _
  have enough : sender.remaining ≤ facing.socket.outlet.script.countP (· != .interrupted) :=
    Nat.le_trans hcount hscript.sublist.countP_le
  refine ⟨count, facing.handleOutput.1, facing.handleOutput.2, fun more => ?_⟩
  rw [extendScripts_append_writes]
  have hsending : facing.phase = .sending sender := hs
  exact handleOutput_extendScripts hsending enough more

/-- **What a call of output does**, with the attempts it makes, newest first.  Interruptions apart
they are no more than there are bytes, and without bytes there are none; and if the socket takes all
that it is offered, the payload is completed in chunks of full size but the last. -/
structure Outputs (sender : Sender) (next : Next) (attempts : List WriteAttempt) : Prop where
  few : attempts.countP (·.result != .interrupted) ≤ sender.remaining
  none : sender.remaining = 0 → attempts = []
  ends : Sender.DrainEnds sender.remaining next attempts
  full : Sender.AllAccepted attempts →
    next = .close ∧ (Outlet.taken attempts).size = sender.remaining
      ∧ attempts.length
        = (sender.remaining + max sender.chunkSize 1 - 1) / max sender.chunkSize 1
      ∧ attempts.map (·.offered.size)
        = Sender.chunkSizes (max sender.chunkSize 1) sender.remaining

theorem outputs_of_drains {after : Sender} {how : Drained} {attempts : List WriteAttempt}
    (h : sender.Drains how after attempts) : Outputs sender (Sender.next how) attempts where
  few := h.countP_le
  none nothing := by
    cases h with
    | delivered => rfl
    | blocked some | failed some | sent some => exact absurd nothing some
  ends := h.ends
  full hall := by
    obtain ⟨rfl, hsizes⟩ := h.sizes hall
    have hlength := congrArg List.length hsizes
    rw [List.length_map, Sender.length_chunkSizes (Nat.le_max_right _ _)] at hlength
    refine ⟨rfl, ?_, hlength, hsizes⟩
    have hadd := h.remaining_add
    rwa [h.remaining_of_delivered rfl, Nat.zero_add] at hadd

theorem outlet_handleOutput_of_sending (hs : connection.phase = .sending sender) :
    connection.handleOutput.2.socket.outlet = (sender.drain connection.socket.outlet).2.2 := by
  rw [handleOutput_of_sending hs]
  rcases sender.drain connection.socket.outlet with ⟨how, after, outlet⟩
  cases how with
  | blocked => rfl
  | delivered | failed => rw [afterDrain, socket_close]

theorem fst_handleOutput_of_sending (hs : connection.phase = .sending sender) :
    connection.handleOutput.1 = Sender.next (sender.drain connection.socket.outlet).1 := by
  rw [handleOutput_of_sending hs]
  rcases sender.drain connection.socket.outlet with ⟨how, after, outlet⟩
  cases how with
  | blocked | delivered | failed => rfl

/-- A connection that is to write again still sends what draining left. -/
theorem phase_handleOutput_of_write (hs : connection.phase = .sending sender)
    (hw : connection.handleOutput.1 = .write) :
    connection.handleOutput.2.phase
      = .sending (sender.drain connection.socket.outlet).2.1 := by
  rw [handleOutput_of_sending hs] at hw ⊢
  generalize sender.drain connection.socket.outlet = drained at hw ⊢
  obtain ⟨how, after, outlet⟩ := drained
  cases how with
  | blocked => rfl
  | delivered | failed => cases hw

/-- **Output drains.**  Whatever the socket does, even if it claims more than it was offered, a call
of output on a connection that sends makes these attempts and gives this answer, and what they did
not take is left; and the call ends, even over a socket that never stops, if interruptions do not go
on for ever. -/
theorem output_drains (connection : Connection) {sender : Sender}
    (hs : connection.phase = .sending sender) :
    (∃ attempts, connection.handleOutput.2.socket.outlet.log
          = attempts ++ connection.socket.outlet.log
        ∧ Outputs sender connection.handleOutput.1 attempts
        ∧ (connection.handleOutput.1 = .write → ∃ after,
          connection.handleOutput.2.phase = .sending after
            ∧ after.remaining + (Outlet.taken attempts).size = sender.remaining))
      ∧ ∀ steps : ℕ → WriteStep,
        (∀ n, ∃ m, n ≤ m ∧ steps m ≠ .interrupted) → connection.EndsOutput steps := by
  refine ⟨?_, fun steps relents => endsOutput_of_sending hs relents⟩
  obtain ⟨attempts, hlog, hdrains⟩ := sender.drains connection.socket.outlet
  refine ⟨attempts, ?_, ?_, fun hw => ⟨_, phase_handleOutput_of_write hs hw, hdrains.remaining_add⟩⟩
  · rwa [outlet_handleOutput_of_sending hs]
  · rw [fst_handleOutput_of_sending hs]
    exact outputs_of_drains hdrains

/-- Five bytes on their way in chunks of two, over a socket that is interrupted, claims nine bytes,
takes one, and would block. -/
def overclaimed : Connection where
  socket := .ofScripts [] [.interrupted, .claim 9, .accept 1, .wouldBlock]
  buffer := []
  phase := .sending (.ofPayload ⟨#[1, 2, 3, 4, 5]⟩ 2)

/-- A socket that takes one byte at every third attempt and is interrupted at the others. -/
def grudging (n : ℕ) : WriteStep :=
  if n % 3 = 2 then .accept 1 else .interrupted

theorem output_drains_overclaimed :
    overclaimed.phase = .sending (.ofPayload ⟨#[1, 2, 3, 4, 5]⟩ 2)
      ∧ (∃ attempts, overclaimed.handleOutput.2.socket.outlet.log = attempts ++ []
        ∧ Outputs (.ofPayload ⟨#[1, 2, 3, 4, 5]⟩ 2) overclaimed.handleOutput.1 attempts
        ∧ (overclaimed.handleOutput.1 = .write → ∃ after,
          overclaimed.handleOutput.2.phase = .sending after
            ∧ after.remaining + (Outlet.taken attempts).size = 5))
      ∧ (∀ n, ∃ m, n ≤ m ∧ grudging m ≠ .interrupted) ∧ overclaimed.EndsOutput grudging := by
  have relents : ∀ n, ∃ m, n ≤ m ∧ grudging m ≠ .interrupted := fun n =>
    ⟨3 * n + 2, by omega, by simp [grudging]⟩
  have hdrains := output_drains overclaimed rfl
  exact ⟨rfl, hdrains.1, relents, hdrains.2 grudging relents⟩

end Connection

end TrackServer
