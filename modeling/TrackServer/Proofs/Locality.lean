import TrackServer.Proofs.Tokens
import TrackServer.Server

/-!
# Proofs/Locality — a notification concerns one token

Everything the server keeps of a client is kept under its token, and `Agree token` says that two
servers keep the same there.  A client's notification is `Confined` to its token: nothing else
changes.  What it does there depends on what is kept there, and on nothing else (`Agree.onClient`).

The listener's notifications hand out new tokens and touch no old one (`agree_acceptFrom`).  What is
kept under a new token depends on the backlog and the next token only (`Agree.acceptFrom`).
-/

namespace TrackServer.Server

variable {server other after : Server} {token t : Token}

/-- **Agreement on a token**: under the same service, the servers have the same client there,
registered alike, and closed the same connection there. -/
structure Agree (token : Token) (server other : Server) : Prop where
  service : server.service = other.service
  client : server.table.get? token = other.table.get? token
  interest : server.registry.lookup token = other.registry.lookup token
  closed : server.closed.lookup token = other.closed.lookup token

theorem Agree.refl (server : Server) : Agree t server server :=
  ⟨rfl, rfl, rfl, rfl⟩

theorem Agree.symm (h : Agree t server other) : Agree t other server :=
  ⟨h.service.symm, h.client.symm, h.interest.symm, h.closed.symm⟩

theorem Agree.trans (h : Agree t server other) (h' : Agree t other after) : Agree t server after :=
  ⟨h.service.trans h'.service, h.client.trans h'.client, h.interest.trans h'.interest,
    h.closed.trans h'.closed⟩

/-- **A change confined to a token**: the other tokens, and the arrivals to come, are left as they
were. -/
structure Confined (token : Token) (server after : Server) : Prop where
  service : after.service = server.service
  backlog : after.backlog = server.backlog
  nextToken : after.table.nextToken = server.table.nextToken
  others : ∀ t, t ≠ token → Agree t after server
  ordered : server.table.Ordered → after.table.Ordered

theorem Confined.refl (server : Server) : Confined token server server :=
  ⟨rfl, rfl, rfl, fun _ _ => .refl server, id⟩

theorem Confined.trans (h : Confined token server other) (h' : Confined token other after) :
    Confined token server after :=
  ⟨h'.service.trans h.service, h'.backlog.trans h.backlog, h'.nextToken.trans h.nextToken,
    fun t ht => (h'.others t ht).trans (h.others t ht), fun ho => h'.ordered (h.ordered ho)⟩

/-! ## Changes -/

theorem lookup_register (interest : Interest) : (server.register token interest).registry.lookup t
    = if t = token then some interest else server.registry.lookup t := by
  rw [register, List.lookup_cons, Table.lookup_filter_ne]
  by_cases ht : t = token
  · simp [ht]
  · simp [ht, beq_eq_false_iff_ne.2 ht]

theorem confined_register (server : Server) (token : Token) (interest : Interest) :
    Confined token server (server.register token interest) where
  service := rfl
  backlog := rfl
  nextToken := rfl
  others _ ht := ⟨rfl, rfl, (lookup_register interest).trans (if_neg ht), rfl⟩
  ordered := id

theorem Agree.register (h : Agree t server other) (interest : Interest) :
    Agree t (server.register t interest) (other.register t interest) where
  service := h.service
  client := h.client
  interest := by rw [lookup_register, lookup_register, if_pos rfl, if_pos rfl]
  closed := h.closed

theorem confined_setConnection (server : Server) (token : Token) (connection : Connection) :
    Confined token server (server.setConnection token connection) where
  service := rfl
  backlog := rfl
  nextToken := rfl
  others t ht := ⟨rfl, (Table.get?_modify token t _).trans (if_neg ht), rfl, rfl⟩
  ordered h := h.modify token fun client => { client with connection }

theorem Agree.setConnection (h : Agree t server other) (connection : Connection) :
    Agree t (server.setConnection t connection) (other.setConnection t connection) where
  service := h.service
  client := by
    rw [Server.setConnection, Server.setConnection, Table.get?_modify, Table.get?_modify, h.client]
  interest := h.interest
  closed := h.closed

theorem closeConnection_of_none (h : server.table.get? token = none) :
    server.closeConnection token = server := by
  rw [closeConnection, h]

theorem closeConnection_of_some {client : Client} (h : server.table.get? token = some client) :
    server.closeConnection token
      = { server with
          table := server.table.remove token
          registry := server.registry.filter (·.1 != token)
          closed := (token, client.connection.close) :: server.closed } := by
  rw [closeConnection, h]

/-- A closed token is not live. -/
theorem get?_closeConnection (server : Server) (token : Token) :
    (server.closeConnection token).table.get? token = none := by
  cases h : server.table.get? token with
  | none => rw [closeConnection_of_none h, h]
  | some client => rw [closeConnection_of_some h, Table.get?_remove, if_pos rfl]

theorem confined_closeConnection (server : Server) (token : Token) :
    Confined token server (server.closeConnection token) := by
  cases h : server.table.get? token with
  | none =>
    rw [closeConnection_of_none h]
    exact .refl server
  | some client =>
    rw [closeConnection_of_some h]
    refine ⟨rfl, rfl, rfl, fun t ht => ⟨rfl, ?_, ?_, ?_⟩, fun ho => ho.remove token⟩
    · exact (Table.get?_remove token t).trans (if_neg ht)
    · exact (Table.lookup_filter_ne server.registry token t).trans (if_neg ht)
    · rw [List.lookup_cons, beq_eq_false_iff_ne.2 ht]

theorem Agree.closeConnection (h : Agree t server other) :
    Agree t (server.closeConnection t) (other.closeConnection t) := by
  cases hc : server.table.get? t with
  | none => rwa [closeConnection_of_none hc, closeConnection_of_none (h.client ▸ hc)]
  | some client =>
    rw [closeConnection_of_some hc, closeConnection_of_some (h.client ▸ hc)]
    refine ⟨h.service, ?_, ?_, ?_⟩
    · rw [Table.get?_remove, Table.get?_remove, if_pos rfl, if_pos rfl]
    · rw [Table.lookup_filter_ne, Table.lookup_filter_ne, if_pos rfl, if_pos rfl]
    · rw [List.lookup_cons_self, List.lookup_cons_self]

/-! ## Registering anew -/

theorem confined_rearm (server : Server) (token : Token) :
    Confined token server (server.rearm token).2 := by
  unfold rearm
  split
  · exact .refl server
  · split
    · exact confined_register server token .inputAndOutput
    · exact confined_closeConnection server token

theorem Agree.rearm (h : Agree t server other) :
    (server.rearm t).1 = (other.rearm t).1 ∧ Agree t (server.rearm t).2 (other.rearm t).2 := by
  unfold Server.rearm
  rw [h.client]
  split
  · exact ⟨rfl, h⟩
  · split
    · exact ⟨rfl, h.register .inputAndOutput⟩
    · exact ⟨rfl, h.closeConnection⟩

/-! ## Readiness -/

/-- What reading leads to: whether output readiness is still to be looked at, and the server. -/
def afterRead (server : Server) (token : Token) (wasReceiving : Bool) : Next → Bool × Server
  | .close => (false, server.closeConnection token)
  | .write => if wasReceiving then server.rearm token else (true, server)
  | .read => (true, server)

/-- What writing leads to. -/
def afterWrite (server : Server) (token : Token) : Next → Server
  | .close => server.closeConnection token
  | _ => server

theorem onReadable_of_none (h : server.table.get? token = none) :
    server.onReadable token = (false, server) := by
  rw [onReadable, h]

theorem onReadable_of_some {client : Client} (h : server.table.get? token = some client) :
    server.onReadable token
      = (server.setConnection token (client.connection.handleInput server.service).2).afterRead
        token client.connection.isReceiving (client.connection.handleInput server.service).1 := by
  rw [onReadable, h]
  dsimp only
  split <;> simp only [afterRead, *]

theorem onWritable_of_none (h : server.table.get? token = none) :
    server.onWritable token = server := by
  rw [onWritable, h]

theorem onWritable_of_some {client : Client} (h : server.table.get? token = some client) :
    server.onWritable token
      = (server.setConnection token client.connection.handleOutput.2).afterWrite token
        client.connection.handleOutput.1 := by
  rw [onWritable, h]
  dsimp only
  split <;> simp [afterWrite, *]

theorem confined_afterRead (server : Server) (token : Token) (wasReceiving : Bool) (next : Next) :
    Confined token server (server.afterRead token wasReceiving next).2 := by
  cases next with
  | close => exact confined_closeConnection server token
  | read => exact .refl server
  | write =>
    cases wasReceiving with
    | true => exact confined_rearm server token
    | false => exact .refl server

theorem Agree.afterRead (h : Agree t server other) (wasReceiving : Bool) (next : Next) :
    (server.afterRead t wasReceiving next).1 = (other.afterRead t wasReceiving next).1
      ∧ Agree t (server.afterRead t wasReceiving next).2
        (other.afterRead t wasReceiving next).2 := by
  cases next with
  | close => exact ⟨rfl, h.closeConnection⟩
  | read => exact ⟨rfl, h⟩
  | write =>
    cases wasReceiving with
    | true => exact h.rearm
    | false => exact ⟨rfl, h⟩

theorem confined_afterWrite (server : Server) (token : Token) (next : Next) :
    Confined token server (server.afterWrite token next) := by
  cases next with
  | close => exact confined_closeConnection server token
  | read | write => exact .refl server

theorem Agree.afterWrite (h : Agree t server other) (next : Next) :
    Agree t (server.afterWrite t next) (other.afterWrite t next) := by
  cases next with
  | close => exact h.closeConnection
  | read | write => exact h

theorem confined_onReadable (server : Server) (token : Token) :
    Confined token server (server.onReadable token).2 := by
  cases hc : server.table.get? token with
  | none =>
    rw [onReadable_of_none hc]
    exact .refl server
  | some client =>
    rw [onReadable_of_some hc]
    exact (confined_setConnection server token _).trans (confined_afterRead _ token _ _)

theorem Agree.onReadable (h : Agree t server other) :
    (server.onReadable t).1 = (other.onReadable t).1
      ∧ Agree t (server.onReadable t).2 (other.onReadable t).2 := by
  cases hc : server.table.get? t with
  | none =>
    rw [onReadable_of_none hc, onReadable_of_none (h.client ▸ hc)]
    exact ⟨rfl, h⟩
  | some client =>
    rw [onReadable_of_some hc, onReadable_of_some (h.client ▸ hc), ← h.service]
    exact (h.setConnection _).afterRead _ _

theorem confined_onWritable (server : Server) (token : Token) :
    Confined token server (server.onWritable token) := by
  cases hc : server.table.get? token with
  | none =>
    rw [onWritable_of_none hc]
    exact .refl server
  | some client =>
    rw [onWritable_of_some hc]
    exact (confined_setConnection server token _).trans (confined_afterWrite _ token _)

theorem Agree.onWritable (h : Agree t server other) :
    Agree t (server.onWritable t) (other.onWritable t) := by
  cases hc : server.table.get? t with
  | none => rwa [onWritable_of_none hc, onWritable_of_none (h.client ▸ hc)]
  | some client =>
    rw [onWritable_of_some hc, onWritable_of_some (h.client ▸ hc)]
    exact (h.setConnection _).afterWrite _

/-! ## A client's notification -/

section Notification

variable {notification : Notification}

/-- The input half of a notification: whether its output half is looked at, and the server. -/
def input (server : Server) (notification : Notification) : Bool × Server :=
  if notification.readable then server.onReadable notification.token else (true, server)

theorem onClient_of_hangup (h : notification.hangup = true) :
    server.onClient notification = server.closeConnection notification.token := by
  rw [onClient, if_pos h]

theorem onClient_of_not_hangup (h : notification.hangup = false) :
    server.onClient notification
      = if (server.input notification).1 && notification.writable
        then (server.input notification).2.onWritable notification.token
        else (server.input notification).2 := by
  rw [onClient, h]
  rfl

/-- Notifications for a token that is not live change nothing. -/
theorem onClient_of_none (h : server.table.get? notification.token = none) :
    server.onClient notification = server := by
  cases hh : notification.hangup with
  | true => rw [onClient_of_hangup hh, closeConnection_of_none h]
  | false =>
    have hi : (server.input notification).2 = server := by
      rw [input, onReadable_of_none h]
      split <;> rfl
    rw [onClient_of_not_hangup hh, hi, onWritable_of_none h]
    split <;> rfl

theorem confined_input (server : Server) (notification : Notification) :
    Confined notification.token server (server.input notification).2 := by
  unfold input
  split
  · exact confined_onReadable server notification.token
  · exact .refl server

theorem Agree.input (h : Agree notification.token server other) :
    (server.input notification).1 = (other.input notification).1
      ∧ Agree notification.token (server.input notification).2 (other.input notification).2 := by
  unfold Server.input
  split
  · exact h.onReadable
  · exact ⟨rfl, h⟩

/-- **A client's notification is confined to its token**… -/
theorem confined_onClient (server : Server) (notification : Notification) :
    Confined notification.token server (server.onClient notification) := by
  cases hh : notification.hangup with
  | true =>
    rw [onClient_of_hangup hh]
    exact confined_closeConnection server notification.token
  | false =>
    have hinput := confined_input server notification
    rw [onClient_of_not_hangup hh]
    split
    · exact hinput.trans (confined_onWritable _ notification.token)
    · exact hinput

/-- **…and looks at nothing else.** -/
theorem Agree.onClient (h : Agree notification.token server other) :
    Agree notification.token (server.onClient notification) (other.onClient notification) := by
  cases hh : notification.hangup with
  | true =>
    rw [onClient_of_hangup hh, onClient_of_hangup hh]
    exact h.closeConnection
  | false =>
    obtain ⟨hgoes, hinput⟩ := h.input
    rw [onClient_of_not_hangup hh, onClient_of_not_hangup hh, hgoes]
    split
    · exact hinput.onWritable
    · exact hinput

end Notification

/-! ## Arrivals -/

theorem get?_enroll_of_registers {arrival : Arrival} (h : arrival.registers = true) :
    (server.enroll arrival).table.get? t
      = if t = server.table.nextToken
        then some ⟨.ofSocket (.ofScripts arrival.reads arrival.writes), arrival.rearms⟩
        else server.table.get? t := by
  rw [enroll, h]
  exact Table.get?_insert server.table.nextToken t _

theorem lookup_enroll_of_registers {arrival : Arrival} (h : arrival.registers = true) :
    (server.enroll arrival).registry.lookup t
      = if t = server.table.nextToken then some .input else server.registry.lookup t := by
  rw [enroll, h]
  exact lookup_register .input

theorem enroll_of_not_registers {arrival : Arrival} (h : arrival.registers = false) :
    server.enroll arrival = { server with table := server.table.reserve.2 } := by
  rw [enroll, h]
  rfl

@[simp] theorem service_enroll (arrival : Arrival) :
    (server.enroll arrival).service = server.service := by
  unfold enroll
  dsimp only
  split <;> rfl

@[simp] theorem closed_enroll (arrival : Arrival) :
    (server.enroll arrival).closed = server.closed := by
  unfold enroll
  dsimp only
  split <;> rfl

@[simp] theorem nextToken_enroll (arrival : Arrival) :
    (server.enroll arrival).table.nextToken = server.table.nextToken + 1 := by
  unfold enroll
  dsimp only
  split <;> rfl

theorem ordered_enroll (h : server.table.Ordered) (arrival : Arrival) :
    (server.enroll arrival).table.Ordered := by
  unfold enroll
  dsimp only
  split
  · exact h.insert_reserve _
  · exact h.reserve

/-- Taking a client in leaves every token but the next as it was. -/
theorem agree_enroll (arrival : Arrival) (ht : t ≠ server.table.nextToken) :
    Agree t (server.enroll arrival) server := by
  cases hr : arrival.registers with
  | true =>
    refine ⟨service_enroll arrival, ?_, ?_, congrArg _ (closed_enroll arrival)⟩
    · rw [get?_enroll_of_registers hr, if_neg ht]
    · rw [lookup_enroll_of_registers hr, if_neg ht]
  | false =>
    rw [enroll_of_not_registers hr]
    exact ⟨rfl, rfl, rfl, rfl⟩

theorem Agree.enroll (h : Agree t server other)
    (hn : server.table.nextToken = other.table.nextToken) (arrival : Arrival) :
    Agree t (server.enroll arrival) (other.enroll arrival) := by
  by_cases ht : t = server.table.nextToken
  · cases hr : arrival.registers with
    | true =>
      have ht' : t = other.table.nextToken := ht.trans hn
      refine ⟨?_, ?_, ?_, ?_⟩
      · rw [service_enroll, service_enroll, h.service]
      · rw [get?_enroll_of_registers hr, get?_enroll_of_registers hr, if_pos ht, if_pos ht']
      · rw [lookup_enroll_of_registers hr, lookup_enroll_of_registers hr, if_pos ht, if_pos ht']
      · rw [closed_enroll, closed_enroll, h.closed]
    | false =>
      rw [enroll_of_not_registers hr, enroll_of_not_registers hr]
      exact ⟨h.service, h.client, h.interest, h.closed⟩
  · exact ((agree_enroll arrival ht).trans h).trans (agree_enroll arrival (hn ▸ ht)).symm

/-! ## Accepting -/

/-- What the clients to come depend on: the backlog and the next token. -/
def door (server : Server) : List AcceptResult × Token :=
  (server.backlog, server.table.nextToken)

theorem nextToken_le_acceptFrom (server : Server) (results : List AcceptResult) :
    server.table.nextToken ≤ (server.acceptFrom results).table.nextToken := by
  induction results generalizing server with
  | nil => exact Nat.le_refl _
  | cons result rest ih =>
    cases result with
    | arrived arrival =>
      have := ih (server.enroll arrival)
      rw [nextToken_enroll] at this
      exact Nat.le_of_succ_le this
    | interrupted | aborted => exact ih server
    | wouldBlock | failed => exact Nat.le_refl _

theorem ordered_acceptFrom (h : server.table.Ordered) (results : List AcceptResult) :
    (server.acceptFrom results).table.Ordered := by
  induction results generalizing server with
  | nil => exact h
  | cons result rest ih =>
    cases result with
    | arrived arrival => exact ih (ordered_enroll h arrival)
    | interrupted | aborted => exact ih h
    | wouldBlock | failed => exact h

/-- **Accepting touches no token but those it hands out.** -/
theorem agree_acceptFrom (results : List AcceptResult)
    (ht : t < server.table.nextToken ∨ (server.acceptFrom results).table.nextToken ≤ t) :
    Agree t (server.acceptFrom results) server := by
  induction results generalizing server with
  | nil => exact ⟨rfl, rfl, rfl, rfl⟩
  | cons result rest ih =>
    cases result with
    | arrived arrival =>
      have hle : server.table.nextToken + 1
          ≤ (server.acceptFrom (.arrived arrival :: rest)).table.nextToken := by
        rw [← nextToken_enroll arrival]
        exact nextToken_le_acceptFrom (server.enroll arrival) rest
      refine Agree.trans (ih (ht.imp (fun hlt => ?_) id)) (agree_enroll arrival ?_)
      · rw [nextToken_enroll]
        exact Nat.lt_succ_of_lt hlt
      · rcases ht with hlt | hge
        · exact Nat.ne_of_lt hlt
        · exact Nat.ne_of_gt (Nat.lt_of_lt_of_le (Nat.lt_succ_self _) (Nat.le_trans hle hge))
    | interrupted | aborted => exact ih ht
    | wouldBlock | failed => exact ⟨rfl, rfl, rfl, rfl⟩

/-- **What accepting puts under a token depends on the next token only**, besides what was there. -/
theorem Agree.acceptFrom (h : Agree t server other)
    (hn : server.table.nextToken = other.table.nextToken) (results : List AcceptResult) :
    Agree t (server.acceptFrom results) (other.acceptFrom results) := by
  induction results generalizing server other with
  | nil => exact ⟨h.service, h.client, h.interest, h.closed⟩
  | cons result rest ih =>
    cases result with
    | arrived arrival =>
      refine ih (h.enroll hn arrival) ?_
      rw [nextToken_enroll, nextToken_enroll, hn]
    | interrupted | aborted => exact ih h hn
    | wouldBlock | failed => exact ⟨h.service, h.client, h.interest, h.closed⟩

theorem door_acceptFrom (hn : server.table.nextToken = other.table.nextToken)
    (results : List AcceptResult) :
    (server.acceptFrom results).door = (other.acceptFrom results).door := by
  induction results generalizing server other with
  | nil => exact congrArg (Prod.mk []) hn
  | cons result rest ih =>
    cases result with
    | arrived arrival =>
      refine ih ?_
      rw [nextToken_enroll, nextToken_enroll, hn]
    | interrupted | aborted => exact ih hn
    | wouldBlock | failed => exact congrArg (Prod.mk rest) hn

/-- **Who is live after accepting** was live before, or has just arrived. -/
theorem get?_acceptFrom {client : Client} (results : List AcceptResult)
    (h : (server.acceptFrom results).table.get? t = some client) :
    server.table.get? t = some client
      ∨ ∃ arrival, .arrived arrival ∈ results
        ∧ client = ⟨.ofSocket (.ofScripts arrival.reads arrival.writes), arrival.rearms⟩ := by
  induction results generalizing server with
  | nil => exact .inl h
  | cons result rest ih =>
    cases result with
    | arrived arrival =>
      rcases ih h with hlive | ⟨later, hm, hc⟩
      · by_cases ht : t = server.table.nextToken
        · cases hr : arrival.registers with
          | true =>
            rw [get?_enroll_of_registers hr, if_pos ht] at hlive
            exact .inr ⟨arrival, List.mem_cons_self, (Option.some.inj hlive).symm⟩
          | false =>
            rw [enroll_of_not_registers hr] at hlive
            exact .inl hlive
        · exact .inl ((agree_enroll arrival ht).client ▸ hlive)
      · exact .inr ⟨later, List.mem_cons_of_mem _ hm, hc⟩
    | interrupted | aborted =>
      exact (ih h).imp id fun ⟨arrival, hm, hc⟩ => ⟨arrival, List.mem_cons_of_mem _ hm, hc⟩
    | wouldBlock | failed => exact .inl h

/-! ## Any notification -/

section Dispatch

variable {notification : Notification}

theorem dispatch_of_ne (h : notification.token ≠ listener) :
    server.dispatch notification = server.onClient notification := by
  rw [dispatch, if_neg h]

theorem dispatch_of_listener (h : notification.token = listener) :
    server.dispatch notification = if notification.readable then server.acceptAll else server := by
  rw [dispatch, if_pos h]

theorem confined_dispatch (server : Server) (h : notification.token ≠ listener) :
    Confined notification.token server (server.dispatch notification) := by
  rw [dispatch_of_ne h]
  exact confined_onClient server notification

theorem ordered_dispatch (h : server.table.Ordered) (notification : Notification) :
    (server.dispatch notification).table.Ordered := by
  by_cases hn : notification.token = listener
  · rw [dispatch_of_listener hn]
    split
    · exact ordered_acceptFrom h server.backlog
    · exact h
  · exact (confined_dispatch server hn).ordered h

theorem nextToken_le_dispatch (server : Server) (notification : Notification) :
    server.table.nextToken ≤ (server.dispatch notification).table.nextToken := by
  by_cases hn : notification.token = listener
  · rw [dispatch_of_listener hn]
    split
    · exact nextToken_le_acceptFrom server server.backlog
    · exact Nat.le_refl _
  · exact Nat.le_of_eq (confined_dispatch server hn).nextToken.symm

theorem door_dispatch_of_ne (server : Server) (h : notification.token ≠ listener) :
    (server.dispatch notification).door = server.door :=
  Prod.ext (confined_dispatch server h).backlog (confined_dispatch server h).nextToken

theorem door_dispatch (h : notification.token = listener) (hd : server.door = other.door) :
    (server.dispatch notification).door = (other.dispatch notification).door := by
  obtain ⟨hb, hn⟩ := Prod.ext_iff.1 hd
  rw [dispatch_of_listener h, dispatch_of_listener h]
  split
  · rw [acceptAll, acceptAll, show server.backlog = other.backlog from hb]
    exact door_acceptFrom hn other.backlog
  · exact hd

/-- The listener's notification leaves every token alone but those it hands out. -/
theorem agree_dispatch_of_listener (h : notification.token = listener)
    (ht : t < server.table.nextToken ∨ (server.dispatch notification).table.nextToken ≤ t) :
    Agree t (server.dispatch notification) server := by
  rw [dispatch_of_listener h] at ht ⊢
  by_cases hr : notification.readable = true
  · rw [if_pos hr] at ht ⊢
    exact agree_acceptFrom server.backlog ht
  · rw [if_neg hr]
    exact .refl server

/-- **A notification leaves every token alone** but its own and those it hands out. -/
theorem agree_dispatch_of_ne (h : notification.token ≠ t)
    (ht : t < server.table.nextToken ∨ (server.dispatch notification).table.nextToken ≤ t) :
    Agree t (server.dispatch notification) server := by
  by_cases hn : notification.token = listener
  · exact agree_dispatch_of_listener hn ht
  · exact (confined_dispatch server hn).others t h.symm

/-- **Servers that agree on a token dispatch its notifications alike.** -/
theorem Agree.dispatch (h : Agree t server other) (hn : notification.token = t)
    (hs : t < server.table.nextToken) (ho : t < other.table.nextToken) :
    Agree t (server.dispatch notification) (other.dispatch notification) := by
  by_cases hl : notification.token = listener
  · exact ((agree_dispatch_of_listener hl (.inl hs)).trans h).trans
      (agree_dispatch_of_listener hl (.inl ho)).symm
  · subst hn
    rw [dispatch_of_ne hl, dispatch_of_ne hl]
    exact h.onClient

/-- **Servers with the same door take clients in alike.** -/
theorem Agree.dispatch_of_door (h : Agree t server other) (hn : notification.token = listener)
    (hd : server.door = other.door) :
    Agree t (server.dispatch notification) (other.dispatch notification) := by
  obtain ⟨hb, hnext⟩ := Prod.ext_iff.1 hd
  rw [dispatch_of_listener hn, dispatch_of_listener hn]
  split
  · rw [acceptAll, acceptAll, show server.backlog = other.backlog from hb]
    exact h.acceptFrom hnext other.backlog
  · exact h

/-- A notification for a client that is not live changes nothing. -/
theorem dispatch_of_none (hn : notification.token ≠ listener)
    (h : server.table.get? notification.token = none) : server.dispatch notification = server := by
  rw [dispatch_of_ne hn, onClient_of_none h]

end Dispatch

end TrackServer.Server
