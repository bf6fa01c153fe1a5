import TrackServer.Proofs.Draining
import TrackServer.Proofs.Poised

/-!
# Proofs/BackPressure — a socket that pushes back changes nothing but the time

A write that would block ends a call, and one that was interrupted is made again inside it; both
only delay.  Taking such steps out of a script, and such attempts out of a log, gives the
`undelayed` outlet, and a call either leaves that as it is or does to it what it does to the outlet
itself (`undelayed_send`, `send_undelayed`).  So runs over two scripts that differ by delays only
come to the same, though they take different numbers of calls and attempts.

* `finish_undelayed`: a sender called to its end, and the same without delays.
* `back_pressure_invisible`: what of a run does not depend on delays, for a sender and for a
  connection.
-/

namespace TrackServer

/-! ## Delays -/

/-- A step that only delays: the write would block or is interrupted. -/
def WriteStep.isDelay : WriteStep → Bool
  | .wouldBlock | .interrupted => true
  | .accept _ | .claim _ | .failed _ => false

/-- The result of such a step. -/
def WriteResult.isDelay : WriteResult → Bool
  | .wouldBlock | .interrupted => true
  | .wrote _ | .failed _ => false

namespace Outlet

/-- **The outlet without delays**, past and to come. -/
def undelayed (outlet : Outlet) : Outlet :=
  ⟨outlet.script.filter (!·.isDelay), outlet.stored, outlet.log.filter (!·.result.isDelay)⟩

section Settle

variable (chunk stored : ByteArray) (log : List WriteAttempt) {script : List WriteStep}

/-- A step that delays changes nothing but the delays. -/
theorem undelayed_of_isDelay {step : WriteStep} (h : step.isDelay = true)
    (rest : List WriteStep) :
    undelayed ⟨rest, stored ++ step.kept chunk, ⟨chunk, step.result chunk⟩ :: log⟩
      = undelayed ⟨step :: rest, stored, log⟩ := by
  cases step with
  | accept | claim | failed => cases h
  | wouldBlock | interrupted =>
    simp [undelayed, WriteStep.kept, WriteStep.result, WriteStep.isDelay, WriteResult.isDelay]

/-- Attempts that end because a write would block leave the outlet without delays as it is… -/
theorem undelayed_settle (h : (settle chunk stored log script).1 = .wouldBlock) :
    (settle chunk stored log script).2.undelayed = undelayed ⟨script, stored, log⟩ := by
  induction script generalizing stored log with
  | nil => cases h
  | cons step rest ih =>
    cases step with
    | accept | claim | failed => cases h
    | wouldBlock => exact undelayed_of_isDelay chunk stored log rfl rest
    | interrupted => exact (ih _ _ h).trans (undelayed_of_isDelay chunk stored log rfl rest)

/-- …and any others are made without delays just the same. -/
theorem settle_undelayed (h : (settle chunk stored log script).1 ≠ .wouldBlock) :
    settle chunk stored (undelayed ⟨script, stored, log⟩).log
        (undelayed ⟨script, stored, log⟩).script
      = ((settle chunk stored log script).1, (settle chunk stored log script).2.undelayed) := by
  induction script generalizing stored log with
  | nil => rfl
  | cons step rest ih =>
    cases step with
    | accept | claim | failed => rfl
    | wouldBlock => exact absurd rfl h
    | interrupted =>
      refine Eq.trans ?_ (ih _ _ h)
      exact congrArg (settle chunk · _ _) ByteArray.append_empty.symm

/-- A write that would block has used up a step. -/
theorem length_script_settle_lt (h : (settle chunk stored log script).1 = .wouldBlock) :
    (settle chunk stored log script).2.script.length < script.length := by
  induction script generalizing stored log with
  | nil => cases h
  | cons step rest ih =>
    cases step with
    | accept | claim | failed => cases h
    | wouldBlock => exact Nat.lt_succ_self _
    | interrupted => exact Nat.lt_succ_of_lt (ih _ _ h)

end Settle

variable {outlet written : Outlet} {chunk : ByteArray} {settlement : Settlement}

theorem undelayed_write (h : outlet.write chunk = (.wouldBlock, written)) :
    written.undelayed = outlet.undelayed := by
  have hsettle := undelayed_settle chunk outlet.stored outlet.log (congrArg Prod.fst h)
  rwa [← write, h] at hsettle

theorem write_undelayed (h : outlet.write chunk = (settlement, written))
    (hs : settlement ≠ .wouldBlock) :
    outlet.undelayed.write chunk = (settlement, written.undelayed) := by
  have hfst : (outlet.write chunk).1 ≠ .wouldBlock := by rwa [h]
  have hsettle := settle_undelayed chunk outlet.stored outlet.log hfst
  rwa [← write, h] at hsettle

theorem length_script_write_lt (h : outlet.write chunk = (.wouldBlock, written)) :
    written.script.length < outlet.script.length := by
  have hsettle := length_script_settle_lt chunk outlet.stored outlet.log (congrArg Prod.fst h)
  rwa [← write, h] at hsettle

theorem length_script_write_le (h : outlet.write chunk = (settlement, written)) :
    written.script.length ≤ outlet.script.length := by
  have hsettle := (script_settle chunk outlet.stored outlet.log outlet.script).length_le
  rwa [← write, h] at hsettle

end Outlet

/-! ## One call of a sender -/

namespace Sender

variable {sender after : Sender} {outlet written : Outlet} {outcome : SendOutcome}

/-- **A call that would block** leaves all as it is, delays apart… -/
theorem undelayed_send (h : sender.send outlet = (.wouldBlock, after, written)) :
    after = sender ∧ written.undelayed = outlet.undelayed
      ∧ written.script.length < outlet.script.length := by
  cases offers h with
  | wouldBlock some write =>
    exact ⟨rfl, Outlet.undelayed_write write, Outlet.length_script_write_lt write⟩

/-- …and any other call comes to the same without delays. -/
theorem send_undelayed (h : sender.send outlet = (outcome, after, written))
    (hb : outcome ≠ .wouldBlock) :
    sender.send outlet.undelayed = (outcome, after, written.undelayed)
      ∧ written.script.length ≤ outlet.script.length := by
  cases offers h with
  | done nothing => exact ⟨send_of_remaining_eq_zero nothing, Nat.le_refl _⟩
  | wouldBlock => exact absurd rfl hb
  | sent some write | refused some write | failed some write =>
    have hwrite := Outlet.write_undelayed write (by simp)
    rw [send, if_neg some, hwrite]
    exact ⟨rfl, Outlet.length_script_write_le write⟩

/-! ## A sender called to its end -/

/-- Every call that goes on leaves fewer bytes to send or fewer steps to come. -/
theorem goes_on_lt (h : sender.send outlet = (outcome, after, written))
    (hgoes : outcome = .wouldBlock ∨ ∃ count, outcome = .sent count) :
    after.remaining + written.script.length < sender.remaining + outlet.script.length := by
  obtain rfl | ⟨count, rfl⟩ := hgoes
  · obtain ⟨rfl, -, hscript⟩ := undelayed_send h
    omega
  · have hscript := (send_undelayed h (by simp)).2
    have hremaining := remaining_send_lt h
    omega

/-- The calls of a sender up to the first that is done or fails: what came of those before it, what
came of it, and what they leave. -/
structure Course where
  before : List SendOutcome
  last : SendOutcome
  sender : Sender
  outlet : Outlet

/-- A course with one more call in front. -/
def Course.afterCall (outcome : SendOutcome) (course : Course) : Course :=
  { course with before := outcome :: course.before }

/-- **Call a sender until it is done or fails.** -/
def finish (sender : Sender) (outlet : Outlet) : Course :=
  match _h : sender.send outlet with
  | (.sent count, after, written) => (after.finish written).afterCall (.sent count)
  | (.wouldBlock, after, written) => (after.finish written).afterCall .wouldBlock
  | (.done, after, written) => ⟨[], .done, after, written⟩
  | (.fault fault, after, written) => ⟨[], .fault fault, after, written⟩
termination_by sender.remaining + outlet.script.length
decreasing_by
  · exact goes_on_lt _h (.inr ⟨count, rfl⟩)
  · exact goes_on_lt _h (.inl rfl)

namespace Course

/-- The numbers of bytes that calls sent, in order. -/
def counts (course : Course) : List ℕ :=
  course.before.filterMap fun
    | .sent count => some count
    | _ => none

/-- The chunks offered by attempts that were no delays, newest first. -/
def offered (course : Course) : List ByteArray :=
  (course.outlet.log.filter (!·.result.isDelay)).map (·.offered)

/-- The course without delays. -/
def undelayed (course : Course) : Course where
  before := course.before.filter (· != .wouldBlock)
  last := course.last
  sender := course.sender
  outlet := course.outlet.undelayed

end Course

section Finish

theorem finish_of_sent {count : ℕ} (h : sender.send outlet = (.sent count, after, written)) :
    sender.finish outlet = (after.finish written).afterCall (.sent count) := by
  rw [finish]
  split <;> simp_all

theorem finish_of_done (h : sender.send outlet = (.done, after, written)) :
    sender.finish outlet = ⟨[], .done, after, written⟩ := by
  rw [finish]
  split <;> simp_all

theorem finish_of_fault {fault : Fault} (h : sender.send outlet = (.fault fault, after, written)) :
    sender.finish outlet = ⟨[], .fault fault, after, written⟩ := by
  rw [finish]
  split <;> simp_all

/-- **A sender called to its end comes to the same without delays.** -/
theorem finish_undelayed (sender : Sender) (outlet : Outlet) :
    sender.finish outlet.undelayed = (sender.finish outlet).undelayed := by
  fun_induction finish sender outlet with
  | case1 sender outlet count after written h ih =>
    rw [finish_of_sent (send_undelayed h (by simp)).1, ih]
    rfl
  | case2 sender outlet after written h ih =>
    obtain ⟨rfl, hsame, -⟩ := undelayed_send h
    rw [← hsame, ih]
    rfl
  | case3 sender outlet after written h =>
    exact finish_of_done (send_undelayed h (by simp)).1
  | case4 sender outlet fault after written h =>
    exact finish_of_fault (send_undelayed h (by simp)).1

end Finish

/-! ## Draining -/

/-- Draining that would block goes on, without delays, as if it had never blocked… -/
theorem drain_undelayed_of_blocked (h : (sender.drain outlet).1 = .blocked) :
    sender.drain outlet.undelayed
        = (sender.drain outlet).2.1.drain (sender.drain outlet).2.2.undelayed
      ∧ (sender.drain outlet).2.2.script.length < outlet.script.length := by
  fun_induction drain sender outlet with
  | case1 sender outlet count after written hsend ih =>
    obtain ⟨hdrain, hscript⟩ := ih h
    obtain ⟨hsame, hle⟩ := send_undelayed hsend (by simp)
    rw [drain_of_sent hsame]
    exact ⟨hdrain, Nat.lt_of_lt_of_le hscript hle⟩
  | case2 sender outlet after written hsend =>
    obtain ⟨rfl, hsame, hscript⟩ := undelayed_send hsend
    exact ⟨congrArg _ hsame.symm, hscript⟩
  | case3 | case4 => cases h

/-- …and draining that is through comes to the same. -/
theorem drain_undelayed (h : (sender.drain outlet).1 ≠ .blocked) :
    sender.drain outlet.undelayed = ((sender.drain outlet).1, (sender.drain outlet).2.1,
      (sender.drain outlet).2.2.undelayed) := by
  fun_induction drain sender outlet with
  | case1 sender outlet count after written hsend ih =>
    rw [drain_of_sent (send_undelayed hsend (by simp)).1]
    exact ih h
  | case2 => exact absurd rfl h
  | case3 sender outlet after written hsend =>
    exact drain_of_done (send_undelayed hsend (by simp)).1
  | case4 sender outlet fault after written hsend =>
    exact drain_of_fault (send_undelayed hsend (by simp)).1

end Sender

/-! ## Calls of output -/

namespace Connection

variable {connection : Connection} {sender : Sender}

/-- The connection without delays in its writes. -/
def undelayed (connection : Connection) : Connection :=
  { connection with
    socket := { connection.socket with outlet := connection.socket.outlet.undelayed } }

/-- The connection after so many calls of output. -/
def outputs (connection : Connection) : ℕ → Connection
  | 0 => connection
  | calls + 1 => connection.handleOutput.2.outputs calls

theorem outputs_of_closing (hc : connection.phase = .closing) (calls : ℕ) :
    connection.outputs calls = connection := by
  induction calls with
  | zero => rfl
  | succ calls ih => rw [outputs, handleOutput_of_closing hc, ih]

/-- What draining leaves takes the place of the outlet and the phase. -/
theorem afterDrain_congr {other : Connection}
    (hinlet : connection.socket.inlet = other.socket.inlet)
    (hbuffer : connection.buffer = other.buffer) (drained : Drained × Sender × Outlet) :
    connection.afterDrain drained = other.afterDrain drained := by
  obtain ⟨how, after, outlet⟩ := drained
  cases how with
  | blocked | delivered | failed => simp [afterDrain, close, hinlet, hbuffer]

/-- **A call of output that would block** leaves a connection that goes on sending as if it had
never blocked, and one that is through leaves what it would without delays. -/
theorem handleOutput_undelayed (hs : connection.phase = .sending sender) :
    (∃ after, connection.handleOutput.2.phase = .sending after
        ∧ connection.undelayed.handleOutput = connection.handleOutput.2.undelayed.handleOutput
        ∧ connection.handleOutput.2.socket.outlet.script.length
          < connection.socket.outlet.script.length)
      ∨ connection.handleOutput.2.phase = .closing
        ∧ connection.undelayed.handleOutput.2 = connection.handleOutput.2.undelayed := by
  have hs' : connection.undelayed.phase = .sending sender := hs
  have hwrites := writes connection
  rw [handleOutput_of_sending hs']
  generalize connection.handleOutput = result at hwrites
  cases hwrites with
  | idle other => exact absurd hs (other sender)
  | blocked phase drained =>
    obtain rfl := Phase.sending.inj (hs.symm.trans phase)
    have hblocked := Sender.drain_undelayed_of_blocked (congrArg Prod.fst drained)
    rw [drained] at hblocked
    refine .inl ⟨_, rfl, ?_, hblocked.2⟩
    rw [handleOutput_of_sending rfl]
    exact (congrArg _ hblocked.1).trans (afterDrain_congr rfl rfl _)
  | @through _ after how outlet phase drained ends =>
    obtain rfl := Phase.sending.inj (hs.symm.trans phase)
    have hthrough : (sender.drain connection.socket.outlet).1 ≠ .blocked := by
      rwa [drained]
    have hsame := Sender.drain_undelayed hthrough
    rw [drained] at hsame
    refine .inr ⟨phase_close, ?_⟩
    refine (congrArg (fun result => (connection.undelayed.afterDrain result).2) hsame).trans ?_
    cases how with
    | blocked => exact absurd rfl ends
    | delivered | failed => rfl

/-- **A call of output that finishes a connection**, after any others, leaves what one call would
without delays. -/
theorem undelayed_outputs {sender : Sender} {left : Connection}
    (hs : connection.phase = .sending sender) (calls : ℕ)
    (hc : (connection.outputs calls).handleOutput = (.close, left)) :
    left.undelayed = connection.undelayed.handleOutput.2 := by
  induction calls generalizing connection sender with
  | zero =>
    rw [outputs] at hc
    obtain ⟨after, hsending, -⟩ | ⟨-, hsame⟩ := handleOutput_undelayed hs
    · have hneeds := fst_handleOutput connection
      rw [needs_of_sending hsending, hc] at hneeds
      cases hneeds
    · rw [hsame, hc]
  | succ calls ih =>
    rw [outputs] at hc
    obtain ⟨after, hsending, hsame, -⟩ | ⟨hclosing, hsame⟩ := handleOutput_undelayed hs
    · rw [ih hsending hc, hsame]
    · rw [outputs_of_closing hclosing, handleOutput_of_closing hclosing] at hc
      rw [hsame, (Prod.mk.inj hc).2]

/-- **Some call of output finishes a connection**: each that does not uses up a step. -/
theorem exists_outputs_close {sender : Sender} (hs : connection.phase = .sending sender) :
    ∃ calls, (connection.outputs calls).handleOutput.1 = .close := by
  induction hn : connection.socket.outlet.script.length using Nat.strongRecOn
    generalizing connection sender with
  | _ steps ih =>
    obtain ⟨after, hsending, -, hfewer⟩ | ⟨hclosing, -⟩ := handleOutput_undelayed hs
    · obtain ⟨calls, hcalls⟩ := ih _ (hn ▸ hfewer) hsending rfl
      exact ⟨calls + 1, hcalls⟩
    · exact ⟨0, (fst_handleOutput connection).trans (needs_of_closing hclosing)⟩

end Connection

/-! ## Two scripts -/

/-- The outlet with other steps to come. -/
def Outlet.facing (outlet : Outlet) (script : List WriteStep) : Outlet :=
  { outlet with script }

/-- The connection with other writes to come. -/
def Connection.facing (connection : Connection) (script : List WriteStep) : Connection :=
  { connection with
    socket := { connection.socket with outlet := connection.socket.outlet.facing script } }

section Course

variable {one other : Sender.Course}

theorem Sender.Course.counts_undelayed (course : Course) :
    course.undelayed.counts = course.counts := by
  obtain ⟨before, last, sender, outlet⟩ := course
  simp only [counts, undelayed]
  induction before with
  | nil => rfl
  | cons outcome rest ih =>
    cases outcome with
    | wouldBlock => exact ih
    | done | fault => exact ih
    | sent count => exact congrArg (count :: ·) ih

theorem Sender.Course.offered_undelayed (course : Course) :
    course.undelayed.offered = course.offered := by
  simp [offered, undelayed, Outlet.undelayed, List.filter_filter]

/-- **Courses that come to the same**: calls sent the same numbers of bytes in the same order, the
last came to the same, attempts that were no delays were offered the same, and the same is
stored. -/
structure Sender.SameCourse (one other : Course) : Prop where
  counts : one.counts = other.counts
  last : one.last = other.last
  offered : one.offered = other.offered
  stored : one.outlet.stored = other.outlet.stored

theorem Sender.sameCourse_of_undelayed (h : one.undelayed = other.undelayed) :
    SameCourse one other where
  counts := by rw [← one.counts_undelayed, h, other.counts_undelayed]
  last := by
    have hlast := congrArg Course.last h
    exact hlast
  offered := by rw [← one.offered_undelayed, h, other.offered_undelayed]
  stored := congrArg (·.outlet.stored) h

end Course

/-- **Connections that output finishes alike**: some call of output finishes each of them, and
whichever it is, the same is stored and the same is left. -/
structure Connection.SameEnd (one other : Connection) : Prop where
  finishes : (∃ calls, (one.outputs calls).handleOutput.1 = .close)
    ∧ ∃ calls, (other.outputs calls).handleOutput.1 = .close
  alike : ∀ calls calls' left left',
    (one.outputs calls).handleOutput = (.close, left) →
    (other.outputs calls').handleOutput = (.close, left') →
      left.socket.outlet.stored = left'.socket.outlet.stored
        ∧ left.socket.inlet = left'.socket.inlet
        ∧ left.buffer = left'.buffer
        ∧ left.phase = left'.phase

theorem Connection.sameEnd_of_undelayed {one other : Connection} {sender sender' : Sender}
    (hs : one.phase = .sending sender) (hs' : other.phase = .sending sender')
    (h : one.undelayed = other.undelayed) : SameEnd one other where
  finishes := ⟨exists_outputs_close hs, exists_outputs_close hs'⟩
  alike calls calls' left left' hc hc' := by
    have hsame : left.undelayed = left'.undelayed := by
      rw [undelayed_outputs hs calls hc, h, undelayed_outputs hs' calls' hc']
    have hbuffer := congrArg Connection.buffer hsame
    have hphase := congrArg Connection.phase hsame
    exact ⟨congrArg (·.socket.outlet.stored) hsame, congrArg (·.socket.inlet) hsame, hbuffer,
      hphase⟩

/-- **Back-pressure is invisible in the result.**  Over two scripts that are the same without
delays, a sender called to its end takes the same course, and a connection that sends is finished by
output alike. -/
theorem back_pressure_invisible {script other : List WriteStep}
    (same : script.filter (!·.isDelay) = other.filter (!·.isDelay)) :
    (∀ (sender : Sender) (outlet : Outlet),
        Sender.SameCourse (sender.finish (outlet.facing script))
          (sender.finish (outlet.facing other)))
      ∧ ∀ (connection : Connection) (sender : Sender), connection.phase = .sending sender →
        Connection.SameEnd (connection.facing script) (connection.facing other) := by
  have houtlet (outlet : Outlet) :
      (outlet.facing script).undelayed = (outlet.facing other).undelayed := by
    rw [Outlet.undelayed, Outlet.facing, same]
    rfl
  refine ⟨fun sender outlet => ?_, fun connection sender hs => ?_⟩
  · refine Sender.sameCourse_of_undelayed ?_
    rw [← Sender.finish_undelayed, houtlet, Sender.finish_undelayed]
  · have hconnection : (connection.facing script).undelayed
        = (connection.facing other).undelayed := by
      rw [Connection.undelayed, Connection.undelayed]
      exact congrArg
        (fun outlet => { connection with socket := { connection.socket with outlet } })
        (houtlet connection.socket.outlet)
    exact Connection.sameEnd_of_undelayed hs hs hconnection

/-- One byte, then a claim of nine, then a fault, with delays in some places and in others: three
bytes are stored in two calls that send, and the connection takes two calls to its end over the one
script and three over the other. -/
theorem back_pressure_invisible_fault :
    let script : List WriteStep :=
      [.accept 1, .wouldBlock, .interrupted, .claim 9, .failed ⟨.brokenPipe, "gone"⟩]
    let other : List WriteStep :=
      [.interrupted, .accept 1, .claim 9, .wouldBlock, .wouldBlock, .failed ⟨.brokenPipe, "gone"⟩]
    let connection : Connection :=
      ⟨.ofScripts [] [], [], .sending (.ofPayload ⟨#[1, 2, 3, 4, 5]⟩ 2)⟩
    script.filter (!·.isDelay) = other.filter (!·.isDelay)
      ∧ Sender.SameCourse
        ((Sender.ofPayload ⟨#[1, 2, 3, 4, 5]⟩ 2).finish ((Outlet.ofScript []).facing script))
        ((Sender.ofPayload ⟨#[1, 2, 3, 4, 5]⟩ 2).finish ((Outlet.ofScript []).facing other))
      ∧ Connection.SameEnd (connection.facing script) (connection.facing other)
      ∧ ((Sender.ofPayload ⟨#[1, 2, 3, 4, 5]⟩ 2).finish
        ((Outlet.ofScript []).facing script)).counts = [1, 2]
      ∧ ((connection.facing script).outputs 1).isSending = true
      ∧ ((connection.facing script).outputs 2).isClosing = true
      ∧ ((connection.facing script).outputs 2).socket.outlet.stored = ⟨#[1, 2, 3]⟩
      ∧ ((connection.facing other).outputs 2).isSending = true
      ∧ ((connection.facing other).outputs 3).isClosing = true
      ∧ ((connection.facing other).outputs 3).socket.outlet.stored = ⟨#[1, 2, 3]⟩ := by
  intro script other connection
  have same : script.filter (!·.isDelay) = other.filter (!·.isDelay) := rfl
  have hinvisible := back_pressure_invisible same
  refine ⟨same, hinvisible.1 _ _, hinvisible.2 connection _ rfl, ?_, ?_, ?_, ?_, ?_, ?_, ?_⟩ <;>
    decide +kernel

end TrackServer
