import TrackServer.Proofs.Poised

/-!
# Proofs/Lifecycle — a connection only moves forward

A connection receives, then sends one response, then is finished; it may skip the response, and it
never turns back.  `Phase.Leads` is this order, and as a sender leads only to itself further on, it
also says that there is one sender at most.  Each call leads on (`leads_call`), so every run does
(`leads_run`).

What a connection answers and which direction it touches depends on the phase that a call finds
(`Orderly`); only that a finished connection holds no bytes comes from the calls before it
(`emptied_run`).

* `lives_forward`: both, for every life of a connection.
-/

namespace TrackServer

/-! ## The order of phases -/

/-- **One phase leads to another**: receiving to every phase, sending to the same sender further on,
and every phase to the end. -/
inductive Phase.Leads : Phase → Phase → Prop
  | waits : Leads .receiving .receiving
  | answers (sender : Sender) : Leads .receiving (.sending sender)
  | proceeds {sender later : Sender} (payload : later.payload = sender.payload)
      (chunkSize : later.chunkSize = sender.chunkSize)
      (further : sender.position ≤ later.position) : Leads (.sending sender) (.sending later)
  | finishes (phase : Phase) : Leads phase .closing

namespace Phase.Leads

variable {phase between later : Phase}

theorem refl (phase : Phase) : Leads phase phase := by
  cases phase with
  | receiving => exact .waits
  | sending sender => exact .proceeds rfl rfl (Nat.le_refl _)
  | closing => exact .finishes _

theorem trans (h : Leads phase between) (h' : Leads between later) : Leads phase later := by
  cases h' with
  | waits => exact h
  | finishes => exact .finishes phase
  | answers sender =>
    cases h with
    | waits => exact .answers sender
  | proceeds payload chunkSize further =>
    cases h with
    | answers => exact .answers _
    | proceeds payload' chunkSize' further' =>
      exact .proceeds (payload.trans payload') (chunkSize.trans chunkSize')
        (Nat.le_trans further' further)

/-- Nothing leads back to receiving. -/
theorem eq_receiving (h : Leads phase .receiving) : phase = .receiving := by
  cases h
  rfl

/-- The end leads nowhere else. -/
theorem eq_closing (h : Leads .closing phase) : phase = .closing := by
  cases h
  rfl

end Phase.Leads

/-! ## Every call leads on -/

namespace Sender

/-- One chunk leads a sender to itself further on… -/
theorem leads_send (sender : Sender) (outlet : Outlet) :
    Phase.Leads (.sending sender) (.sending (sender.send outlet).2.1) := by
  by_cases hr : sender.remaining = 0
  · rw [send_of_remaining_eq_zero hr]
    exact .refl _
  · rw [snd_send hr]
    exact .proceeds rfl rfl (Nat.le_add_right _ _)

/-- …and so does draining. -/
theorem leads_drain (sender : Sender) (outlet : Outlet) :
    Phase.Leads (.sending sender) (.sending (sender.drain outlet).2.1) :=
  drain_induct (P := fun now _ => Phase.Leads (.sending sender) (.sending now))
    (fun now outlet h => h.trans (leads_send now outlet)) (.refl _)

end Sender

namespace Connection

variable {connection : Connection} {service : Service}

theorem leads_handleInput (service : Service) (connection : Connection) :
    connection.phase.Leads (connection.handleInput service).2.phase := by
  have hreads := reads service connection
  generalize connection.handleInput service = result at hreads
  cases hreads with
  | idle | blocked => exact .refl _
  | answered phase =>
    rw [phase]
    exact .answers _
  | ended =>
    rw [phase_close]
    exact .finishes _

theorem leads_handleOutput (connection : Connection) :
    connection.phase.Leads connection.handleOutput.2.phase := by
  have hwrites := writes connection
  generalize connection.handleOutput = result at hwrites
  cases hwrites with
  | idle => exact .refl _
  | through =>
    rw [phase_close]
    exact .finishes _
  | @blocked sender _ _ phase drained =>
    have hleads := sender.leads_drain connection.socket.outlet
    rw [phase]
    rwa [drained] at hleads

/-- **Every call leads on.** -/
theorem leads_call (service : Service) (connection : Connection) (call : Call) :
    connection.phase.Leads (connection.call service call).phase := by
  cases call with
  | input files => exact leads_handleInput { service with files } connection
  | output => exact leads_handleOutput connection
  | close =>
    rw [Connection.call, phase_close]
    exact .finishes _

/-- **Every run leads on.** -/
theorem leads_run (service : Service) (connection : Connection) (calls : List Call) :
    connection.phase.Leads (connection.run service calls).phase := by
  induction calls generalizing connection with
  | nil => exact .refl _
  | cons call rest ih => exact (leads_call service connection call).trans (ih _)

/-! ## One sender at most -/

/-- The senders that calls create, in order.  A call creates one if the connection sends after it
and did not before. -/
def created (service : Service) (connection : Connection) : List Call → List Sender
  | [] => []
  | call :: rest =>
    let after := connection.call service call
    (if connection.isSending then [] else after.sender?.toList) ++ created service after rest

/-- A connection that receives no more gets no sender any more. -/
theorem created_eq_nil (h : connection.phase ≠ .receiving) (calls : List Call) :
    created service connection calls = [] := by
  induction calls generalizing connection with
  | nil => rfl
  | cons call rest ih =>
    have hleads := leads_call service connection call
    have hafter : (connection.call service call).phase ≠ .receiving := fun hr =>
      h (hr ▸ hleads).eq_receiving
    rw [created, ih hafter, List.append_nil]
    cases hp : connection.phase with
    | receiving => exact absurd hp h
    | sending sender => rw [isSending, hp, if_pos rfl]
    | closing =>
      rw [hp] at hleads
      rw [isSending, hp, if_neg Bool.false_ne_true, sender?, hleads.eq_closing]
      rfl

/-- **Calls create one sender at most.** -/
theorem length_created_le (service : Service) (connection : Connection) (calls : List Call) :
    (created service connection calls).length ≤ 1 := by
  induction calls generalizing connection with
  | nil => exact Nat.zero_le 1
  | cons call rest ih =>
    rw [created, List.length_append]
    by_cases hr : (connection.call service call).phase = .receiving
    · -- A call that leaves the connection receiving creates none, the rest one at most.
      have hnone : (connection.call service call).sender? = none := by rw [sender?, hr]
      rw [hnone, Option.toList_none, ite_self, List.length_nil, Nat.zero_add]
      exact ih _
    · -- Any other call is the last that may have created one.
      rw [created_eq_nil hr, List.length_nil, Nat.add_zero]
      split
      · exact Nat.zero_le 1
      · exact Option.length_toList_le

/-! ## What a call finds -/

theorem isReceiving_iff : connection.isReceiving = true ↔ connection.phase = .receiving := by
  cases h : connection.phase <;> simp [isReceiving, h]

theorem isClosing_iff : connection.isClosing = true ↔ connection.phase = .closing := by
  cases h : connection.phase <;> simp [isClosing, h]

/-- **An answer that says the phase** that the connection is in afterwards. -/
structure Says (result : Next × Connection) : Prop where
  read : result.1 = .read ↔ result.2.isReceiving = true
  write : result.1 = .write ↔ result.2.isSending = true
  close : result.1 = .close ↔ result.2.isClosing = true

theorem says_of_needs {result : Next × Connection} (h : result.1 = result.2.needs) :
    Says result where
  read := by rw [h, isReceiving_eq, decide_eq_true_iff]
  write := by rw [h, isSending_eq, decide_eq_true_iff]
  close := by rw [h, isClosing_eq, decide_eq_true_iff]

/-- Only a connection that receives reads… -/
theorem inlet_call (h : connection.isReceiving = false) (service : Service) (call : Call) :
    (connection.call service call).socket.inlet = connection.socket.inlet := by
  cases call with
  | close => rw [Connection.call, socket_close]
  | input files =>
    rw [isReceiving_eq, decide_eq_false_iff_not] at h
    rw [Connection.call, handleInput_eq_of_needs h]
  | output =>
    have hwrites := writes connection
    rw [Connection.call]
    generalize connection.handleOutput = result at hwrites
    cases hwrites with
    | idle | blocked => rfl
    | through => rw [socket_close]

/-- …and only one that sends writes. -/
theorem outlet_call (h : connection.isSending = false) (service : Service) (call : Call) :
    (connection.call service call).socket.outlet = connection.socket.outlet := by
  cases call with
  | close => rw [Connection.call, socket_close]
  | input files => exact outlet_handleInput
  | output =>
    have hwrites := writes connection
    rw [Connection.call]
    generalize connection.handleOutput = result at hwrites
    cases hwrites with
    | idle => rfl
    | blocked phase | through phase => simp [isSending, phase] at h

/-- A finished connection is left as it is. -/
theorem call_of_closing (h : connection.phase = .closing) (service : Service) (call : Call) :
    connection.call service call = connection := by
  cases call with
  | input files => rw [Connection.call, handleInput_of_closing h]
  | output => rw [Connection.call, handleOutput_of_closing h]
  | close => rw [Connection.call, close, h]

/-! ## A finished connection holds no bytes -/

/-- A connection that holds no bytes once it is finished. -/
def Emptied (connection : Connection) : Prop :=
  connection.phase = .closing → connection.buffer = []

theorem Emptied.close (h : connection.Emptied) : connection.close.Emptied := by
  intro _
  unfold Connection.close
  split
  · next hc => exact h hc
  · rfl

theorem Emptied.call (h : connection.Emptied) (service : Service) (call : Call) :
    (connection.call service call).Emptied := by
  cases call with
  | close => exact h.close
  | input files =>
    have hreads := reads { service with files } connection
    rw [Connection.call]
    generalize connection.handleInput { service with files } = result at hreads
    cases hreads with
    | idle => exact h
    | blocked phase => exact fun hc => nomatch phase.symm.trans hc
    | answered => exact nofun
    | ended phase => exact Emptied.close fun hc => nomatch phase.symm.trans hc
  | output =>
    have hwrites := writes connection
    rw [Connection.call]
    generalize connection.handleOutput = result at hwrites
    cases hwrites with
    | idle => exact h
    | blocked => exact nofun
    | through => exact Emptied.close nofun

theorem emptied_run (h : connection.Emptied) (service : Service) (calls : List Call) :
    (connection.run service calls).Emptied := by
  induction calls generalizing connection with
  | nil => exact h
  | cons call rest ih => exact ih (h.call service call)

/-! ## A whole life -/

/-- **What holds of a connection at a moment of its life**, whichever call comes next.  Either
answer says the phase afterwards; it reads only if it receives and writes only if it sends, and
readiness in the other direction changes nothing at all; and once it is finished it holds no bytes,
and no call changes it. -/
structure Orderly (connection : Connection) : Prop where
  answersInput : ∀ service, Says (connection.handleInput service)
  answersOutput : Says connection.handleOutput
  reads : ∀ service call,
    (connection.call service call).socket.inlet ≠ connection.socket.inlet →
      connection.isReceiving = true
  writes : ∀ service call,
    (connection.call service call).socket.outlet ≠ connection.socket.outlet →
      connection.isSending = true
  inputWhileSending : connection.isSending = true →
    ∀ service, (connection.handleInput service).2 = connection
  outputWhileReceiving : connection.isReceiving = true → connection.handleOutput.2 = connection
  finished : connection.isClosing = true →
    connection.buffer = [] ∧ ∀ service call, connection.call service call = connection

theorem Emptied.orderly (h : connection.Emptied) : connection.Orderly where
  answersInput service := says_of_needs (fst_handleInput connection service)
  answersOutput := says_of_needs (fst_handleOutput connection)
  reads service call hne := by
    cases hr : connection.isReceiving with
    | true => rfl
    | false => exact absurd (inlet_call hr service call) hne
  writes service call hne := by
    cases hs : connection.isSending with
    | true => rfl
    | false => exact absurd (outlet_call hs service call) hne
  inputWhileSending hs service := handleInput_eq_of_needs fun hn => by
    rw [isSending_eq, hn] at hs
    cases hs
  outputWhileReceiving hr := by rw [handleOutput_of_receiving (isReceiving_iff.1 hr)]
  finished hc := ⟨h (isClosing_iff.1 hc), call_of_closing (isClosing_iff.1 hc)⟩

/-- **The life of a connection over calls**: its phase leads on from any moment to any later one, it
gets one sender at most, and it is orderly at every moment. -/
structure Life (service : Service) (fresh : Connection) (calls : List Call) : Prop where
  forward : ∀ earlier later, earlier ++ later <+: calls →
    (fresh.run service earlier).phase.Leads (fresh.run service (earlier ++ later)).phase
  created : (created service fresh calls).length ≤ 1
  orderly : ∀ made, made <+: calls → (fresh.run service made).Orderly

/-- **A connection only moves forward**, whatever its socket does and in whatever order its calls
come. -/
theorem lives_forward (service : Service) (socket : Socket) (calls : List Call) :
    Life service (ofSocket socket) calls where
  forward earlier later _ := by
    rw [run_append]
    exact leads_run service _ later
  created := length_created_le service (ofSocket socket) calls
  orderly made _ := by
    have hfresh : (ofSocket socket).Emptied := nofun
    exact (emptied_run hfresh service made).orderly

end Connection

end TrackServer
