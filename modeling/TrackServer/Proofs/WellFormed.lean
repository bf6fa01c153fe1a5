import TrackServer.Proofs.Interleaving
import TrackServer.Proofs.Poised
import TrackServer.Proofs.Segmentation

/-!
# Proofs/WellFormed — table, phases and registry stay in step

The registry is kept by hand: every change of a connection's phase has to be followed by a change of
its registration.  `Kept token` says that this was done for one token: either nothing is under it,
or a poised connection, registered for what it needs.

A notification confined to another token keeps that by locality, so each handler is looked at under
its own token only (`Kept.onReadable`, `Kept.onWritable`, `Kept.closeConnection`), where the need
that the connection reports decides what the server does.  Accepting keeps it under every token
(`KeepsAll.acceptFrom`), hence so does every run (`Reachable.keepsAll`).

* `wellFormed_of_reachable`: what this says of every server that can come about.
-/

namespace TrackServer

/-- The interest in which a token is registered that needs so much. -/
def Next.interest? : Next → Option Interest
  | .read => some .input
  | .write => some .inputAndOutput
  | .close => none

namespace Server

variable {server other : Server} {token t : Token} {client : Client} {connection : Connection}

/-- **What a server keeps under a token**: nothing, or a poised connection that is not finished, the
first under that token, registered for what it needs. -/
inductive Kept (token : Token) (server : Server) : Prop
  | nothing (vacant : server.table.get? token = none)
      (unregistered : server.registry.lookup token = none)
  | client (client : Client) (live : server.table.get? token = some client)
      (poised : client.connection.Poised server.service.maxRequest)
      (unfinished : client.connection.needs ≠ .close)
      (registered : server.registry.lookup token = client.connection.needs.interest?)
      (first : server.closed.lookup token = none)

/-- Agreement keeps what is kept. -/
theorem Kept.of_agree (h : Kept t other) (ha : Agree t server other) : Kept t server := by
  cases h with
  | nothing vacant unregistered =>
    exact .nothing (ha.client.trans vacant) (ha.interest.trans unregistered)
  | client client live poised unfinished registered first =>
    exact .client client (ha.client.trans live) (ha.service ▸ poised) unfinished
      (ha.interest.trans registered) (ha.closed.trans first)

/-! ## One token -/

/-- Nothing is kept of a connection that was closed. -/
theorem kept_closeConnection (live : server.table.get? token = some client) :
    Kept token (server.closeConnection token) := by
  refine .nothing (get?_closeConnection server token) ?_
  rw [closeConnection_of_some live]
  exact (Table.lookup_filter_ne server.registry token token).trans (if_pos rfl)

theorem Kept.closeConnection (h : Kept token server) :
    Kept token (server.closeConnection token) := by
  cases h with
  | nothing vacant unregistered =>
    rw [closeConnection_of_none vacant]
    exact .nothing vacant unregistered
  | client client live => exact kept_closeConnection live

/-- A connection that now needs output is registered for it, or closed. -/
theorem kept_rearm (live : server.table.get? token = some client)
    (poised : client.connection.Poised server.service.maxRequest)
    (needs : client.connection.needs = .write) (first : server.closed.lookup token = none) :
    Kept token (server.rearm token).2 := by
  unfold rearm
  rw [live]
  dsimp only
  split
  · refine .client client live poised (by rw [needs]; exact nofun) ?_ first
    rw [lookup_register, if_pos rfl, needs]
    rfl
  · exact kept_closeConnection live

theorem get?_setConnection_of_some (live : server.table.get? token = some client)
    (connection : Connection) :
    (server.setConnection token connection).table.get? token
      = some { client with connection } := by
  rw [get?_setConnection, live]
  rfl

/-- A connection with the same need may take the place of one that is kept. -/
theorem kept_setConnection (live : server.table.get? token = some client)
    (registered : server.registry.lookup token = connection.needs.interest?)
    (poised : connection.Poised server.service.maxRequest) (unfinished : connection.needs ≠ .close)
    (first : server.closed.lookup token = none) :
    Kept token (server.setConnection token connection) :=
  .client _ (get?_setConnection_of_some live connection) poised unfinished registered first

/-- **Input readiness keeps a token**: the need after reading decides. -/
theorem Kept.onReadable (h : Kept token server) : Kept token (server.onReadable token).2 := by
  cases h with
  | nothing vacant unregistered =>
    rw [onReadable_of_none vacant]
    exact .nothing vacant unregistered
  | client client live poised unfinished registered first =>
    have hpoised := @Connection.Poised.handleInput _ server.service poised
    rw [onReadable_of_some live, Connection.fst_handleInput, Connection.isReceiving_eq]
    by_cases hread : client.connection.needs = .read
    · -- A connection that was received from is registered for input only.
      rw [decide_eq_true hread]
      rw [hread] at registered
      generalize (client.connection.handleInput server.service).2 = after at hpoised ⊢
      cases hneeds : after.needs with
      | read =>
        exact kept_setConnection live (hneeds ▸ registered) hpoised (by rw [hneeds]; exact nofun)
          first
      | write => exact kept_rearm (get?_setConnection_of_some live after) hpoised hneeds first
      | close => exact kept_closeConnection (get?_setConnection_of_some live after)
    · -- Any other is left as it was, and so is its registration.
      rw [decide_eq_false hread, Connection.handleInput_eq_of_needs hread]
      have hkept := kept_setConnection live registered poised unfinished first
      cases hneeds : client.connection.needs with
      | read | write => exact hkept
      | close => exact absurd hneeds unfinished

/-- **Output readiness keeps a token**: unless the connection is finished, it needs what it
needed. -/
theorem Kept.onWritable (h : Kept token server) : Kept token (server.onWritable token) := by
  cases h with
  | nothing vacant unregistered =>
    rw [onWritable_of_none vacant]
    exact .nothing vacant unregistered
  | client client live poised unfinished registered first =>
    have hpoised := poised.handleOutput
    have hsame := client.connection.needs_handleOutput
    rw [onWritable_of_some live, Connection.fst_handleOutput]
    generalize client.connection.handleOutput.2 = after at hpoised hsame ⊢
    rcases hsame with hsame | hclose
    · have hkept := kept_setConnection live (hsame ▸ registered) hpoised (hsame ▸ unfinished)
        first
      cases hneeds : after.needs with
      | read | write => exact hkept
      | close => exact absurd (hsame.symm.trans hneeds) unfinished
    · rw [hclose]
      exact kept_closeConnection (get?_setConnection_of_some live after)

theorem Kept.onClient {notification : Notification} (h : Kept notification.token server) :
    Kept notification.token (server.onClient notification) := by
  cases hh : notification.hangup with
  | true =>
    rw [onClient_of_hangup hh]
    exact h.closeConnection
  | false =>
    have hinput : Kept notification.token (server.input notification).2 := by
      unfold input
      split
      · exact h.onReadable
      · exact h
    rw [onClient_of_not_hangup hh]
    split
    · exact hinput.onWritable
    · exact hinput

/-! ## Every token -/

/-- **A server that keeps its tokens**: the live ones in order, under every token what is kept
there, and nothing closed yet under a token to come. -/
structure KeepsAll (server : Server) : Prop where
  ordered : server.table.Ordered
  kept : ∀ t, Kept t server
  unspent : ∀ t, server.table.nextToken ≤ t → server.closed.lookup t = none

theorem KeepsAll.enroll (h : KeepsAll server) (arrival : Arrival) :
    KeepsAll (server.enroll arrival) where
  ordered := ordered_enroll h.ordered arrival
  unspent t ht := by
    rw [nextToken_enroll] at ht
    rw [closed_enroll]
    exact h.unspent t (Nat.le_of_succ_le ht)
  kept t := by
    by_cases ht : t = server.table.nextToken
    · cases hr : arrival.registers with
      | true =>
        have live := @get?_enroll_of_registers server t arrival hr
        have registered := @lookup_enroll_of_registers server t arrival hr
        rw [if_pos ht] at live registered
        refine .client _ live (Connection.poised_ofSocket _ _ _) nofun registered ?_
        rw [closed_enroll]
        exact h.unspent t (Nat.le_of_eq ht.symm)
      | false =>
        rw [enroll_of_not_registers hr]
        exact (h.kept t).of_agree ⟨rfl, rfl, rfl, rfl⟩
    · exact (h.kept t).of_agree (agree_enroll arrival ht)

/-- A change of the backlog alone. -/
theorem KeepsAll.withBacklog (h : KeepsAll server) (backlog : List AcceptResult) :
    KeepsAll { server with backlog } :=
  ⟨h.ordered, fun t => (h.kept t).of_agree ⟨rfl, rfl, rfl, rfl⟩, h.unspent⟩

/-- **Accepting keeps every token**, the new ones among them. -/
theorem KeepsAll.acceptFrom (h : KeepsAll server) (results : List AcceptResult) :
    KeepsAll (server.acceptFrom results) := by
  induction results generalizing server with
  | nil => exact h.withBacklog []
  | cons result rest ih =>
    cases result with
    | arrived arrival => exact ih (h.enroll arrival)
    | interrupted | aborted => exact ih h
    | wouldBlock | failed => exact h.withBacklog rest

/-- **A client's notification keeps every token**: its own by what was shown of the handlers, the
others because it is confined. -/
theorem KeepsAll.onClient (h : KeepsAll server) (notification : Notification) :
    KeepsAll (server.onClient notification) where
  ordered := (confined_onClient server notification).ordered h.ordered
  kept t := by
    by_cases ht : t = notification.token
    · subst ht
      exact (h.kept notification.token).onClient
    · exact (h.kept t).of_agree ((confined_onClient server notification).others t ht)
  unspent t ht := by
    rw [(confined_onClient server notification).nextToken] at ht
    by_cases hn : t = notification.token
    · subst hn
      rw [onClient_of_none (h.ordered.get?_of_le ht)]
      exact h.unspent notification.token ht
    · rw [((confined_onClient server notification).others t hn).closed]
      exact h.unspent t ht

/-- **Every notification keeps every token.** -/
theorem KeepsAll.dispatch (h : KeepsAll server) (notification : Notification) :
    KeepsAll (server.dispatch notification) := by
  unfold Server.dispatch
  split
  · split
    · exact h.acceptFrom server.backlog
    · exact h
  · exact h.onClient notification

theorem KeepsAll.turn (h : KeepsAll server) (notifications : List Notification) :
    KeepsAll (server.turn notifications) := by
  induction notifications generalizing server with
  | nil => exact h
  | cons notification rest ih => exact ih (h.dispatch notification)

/-- More results to come on the socket of a live client. -/
theorem KeepsAll.supplied (h : KeepsAll server) (live : server.table.get? token = some client)
    (reads : List ReadResult) (writes : List WriteStep) :
    KeepsAll (server.setConnection token (client.connection.extendScripts reads writes)) where
  ordered := (confined_setConnection server token _).ordered h.ordered
  unspent := h.unspent
  kept t := by
    by_cases ht : t = token
    · subst ht
      cases h.kept t with
      | nothing vacant =>
        rw [vacant] at live
        cases live
      | client known hknown poised unfinished registered first =>
        obtain rfl : client = known := Option.some.inj (live.symm.trans hknown)
        exact kept_setConnection live registered (poised.extendScripts reads writes) unfinished
          first
    · exact (h.kept t).of_agree ((confined_setConnection server token _).others t ht)

/-- **A reachable server keeps every token.** -/
theorem Reachable.keepsAll (h : Reachable server) : KeepsAll server := by
  induction h with
  | bound => exact ⟨Table.ordered_empty, fun _ => .nothing rfl rfl, fun _ _ => rfl⟩
  | turn batch _ ih => exact ih.turn batch
  | queued more _ ih => exact ih.withBacklog _
  | supplied live reads writes _ ih => exact ih.supplied live reads writes
  | changed files _ ih =>
    refine ⟨ih.ordered, fun t => ?_, ih.unspent⟩
    cases ih.kept t with
    | nothing vacant unregistered => exact .nothing vacant unregistered
    | client client live poised unfinished registered first =>
      exact .client client live poised unfinished registered first

/-! ## Well-formed servers -/

/-- **A well-formed server.**  Live tokens lie between the listener's and the next.  No live
connection is finished, and one has a sender exactly while it sends.  It is registered for input
only exactly while it receives, then with a buffer that holds no line and is not too long, and for
input and output exactly while it sends.  Connections that were closed are not live, and tokens that
are not live are not registered. -/
structure WellFormed (server : Server) : Prop where
  tokens : ∀ token ∈ server.table.tokens, 1 ≤ token ∧ token < server.table.nextToken
  unfinished : ∀ {token client}, server.table.get? token = some client →
    client.connection.isClosing = false
  sender : ∀ {token client}, server.table.get? token = some client →
    (client.connection.sender?.isSome = true ↔ client.connection.isSending = true)
  input : ∀ {token client}, server.table.get? token = some client →
    (server.registry.lookup token = some .input ↔ client.connection.isReceiving = true)
  inputAndOutput : ∀ {token client}, server.table.get? token = some client →
    (server.registry.lookup token = some .inputAndOutput ↔ client.connection.isSending = true)
  undecided : ∀ {token client}, server.table.get? token = some client →
    client.connection.isReceiving = true → Ascii.newline ∉ client.connection.buffer
      ∧ client.connection.buffer.length ≤ server.service.maxRequest
  erased : ∀ {token connection}, (token, connection) ∈ server.closed →
    server.table.get? token = none
  unregistered : ∀ {token}, server.table.get? token = none →
    token ∉ server.registry.map Prod.fst

theorem interest?_eq_input_iff {next : Next} : next.interest? = some .input ↔ next = .read := by
  cases next <;> simp [Next.interest?]

theorem interest?_eq_inputAndOutput_iff {next : Next} :
    next.interest? = some .inputAndOutput ↔ next = .write := by
  cases next <;> simp [Next.interest?]

/-- What is kept under a live token. -/
theorem Kept.live (h : Kept token server) (live : server.table.get? token = some client) :
    client.connection.Poised server.service.maxRequest ∧ client.connection.needs ≠ .close
      ∧ server.registry.lookup token = client.connection.needs.interest? := by
  cases h with
  | nothing vacant =>
    rw [vacant] at live
    cases live
  | client known hknown poised unfinished registered =>
    obtain rfl : client = known := Option.some.inj (live.symm.trans hknown)
    exact ⟨poised, unfinished, registered⟩

/-- What is kept under a token that is not live. -/
theorem Kept.unregistered (h : Kept token server) (vacant : server.table.get? token = none) :
    server.registry.lookup token = none := by
  cases h with
  | nothing _ unregistered => exact unregistered
  | client client live =>
    rw [vacant] at live
    cases live

/-- A token under which a connection was closed is not live. -/
theorem Kept.erased (h : Kept token server) {connection : Connection}
    (closed : (token, connection) ∈ server.closed) : server.table.get? token = none := by
  cases h with
  | nothing vacant => exact vacant
  | client client live poised unfinished registered first =>
    exact absurd (List.mem_map_of_mem closed) (Table.lookup_eq_none_iff_notMem.1 first)

/-- **Every server that can come about is well formed.** -/
theorem wellFormed_of_reachable (h : Reachable server) : WellFormed server := by
  have ⟨hordered, hkept, _⟩ := h.keepsAll
  constructor
  case tokens => exact fun token hm => ⟨hordered.above token hm, hordered.below token hm⟩
  case unfinished =>
    intro token client live
    rw [Connection.isClosing_eq, decide_eq_false ((hkept token).live live).2.1]
  case sender =>
    intro token client _
    rw [Connection.isSending_eq_isSome_sender?]
  case input =>
    intro token client live
    rw [((hkept token).live live).2.2, interest?_eq_input_iff, Connection.isReceiving_eq,
      decide_eq_true_iff]
  case inputAndOutput =>
    intro token client live
    rw [((hkept token).live live).2.2, interest?_eq_inputAndOutput_iff, Connection.isSending_eq,
      decide_eq_true_iff]
  case undecided =>
    intro token client live hreceiving
    cases ((hkept token).live live).1 with
    | receiving phase buffer undecided => exact not_decided_iff.1 undecided
    | sending sender phase => simp [Connection.isReceiving, phase] at hreceiving
    | closing phase => simp [Connection.isReceiving, phase] at hreceiving
  case erased => exact fun {token} _ closed => (hkept token).erased closed
  case unregistered =>
    intro token vacant
    exact Table.lookup_eq_none_iff_notMem.1 ((hkept token).unregistered vacant)

/-- The two clients that waited, taken in: the first is refused, over a write that blocks, and the
second one hangs up. -/
theorem wellFormed_of_reachable_two_clients :
    Reachable (twoWaiting.turn [⟨0, true, false, false⟩, ⟨1, true, true, false⟩,
        ⟨2, false, false, true⟩])
      ∧ (twoWaiting.turn [⟨0, true, false, false⟩, ⟨1, true, true, false⟩,
        ⟨2, false, false, true⟩]).registry = [(1, .inputAndOutput)]
      ∧ WellFormed (twoWaiting.turn [⟨0, true, false, false⟩, ⟨1, true, true, false⟩,
        ⟨2, false, false, true⟩]) :=
  ⟨.turn _ (.bound _ _), by decide +kernel, wellFormed_of_reachable (.turn _ (.bound _ _))⟩

end Server

end TrackServer
