import TrackServer.Proofs.Locality

/-!
# Proofs/Alone — a live connection, seen on its own

`Connection.alone` is what notifications make of a connection that has no server around it.  As long
as a client is live the server does nothing else to it (`live_dispatch`), so it is what its own
notifications make of the connection that it had before, or got when it was accepted (`live_turn`).
-/

namespace TrackServer

namespace Connection

/-- What one notification makes of a connection on its own: a hang-up closes it, and input comes
before output. -/
def attend (service : Service) (connection : Connection) (notification : Notification) :
    Connection :=
  if notification.hangup then connection.close
  else
    let connection :=
      if notification.readable then (connection.handleInput service).2 else connection
    if notification.writable then connection.handleOutput.2 else connection

/-- **What notifications make of a connection on its own.** -/
def alone (service : Service) (connection : Connection) (notifications : List Notification) :
    Connection :=
  notifications.foldl (attend service) connection

end Connection

namespace Server

variable {server : Server} {token t : Token} {client : Client}

/-! ## Who is still live -/

theorem get?_setConnection (connection : Connection) :
    (server.setConnection token connection).table.get? token
      = (server.table.get? token).map fun client => { client with connection } :=
  (Table.get?_modify token token _).trans (if_pos rfl)

/-- A client that is live after registering anew was registered, and goes on. -/
theorem live_rearm (h : (server.rearm token).2.table.get? token = some client) :
    (server.rearm token).1 = true ∧ server.table.get? token = some client := by
  unfold rearm at h ⊢
  split at h
  · next hc => simp [hc] at h
  · next before hc =>
    by_cases hr : before.rearms = true
    · rw [if_pos hr] at h ⊢
      exact ⟨rfl, h⟩
    · rw [if_neg hr, get?_closeConnection] at h
      cases h

theorem live_afterRead {wasReceiving : Bool} {next : Next}
    (h : (server.afterRead token wasReceiving next).2.table.get? token = some client) :
    (server.afterRead token wasReceiving next).1 = true
      ∧ server.table.get? token = some client := by
  cases next with
  | close =>
    rw [afterRead, get?_closeConnection] at h
    cases h
  | read => exact ⟨rfl, h⟩
  | write =>
    cases wasReceiving with
    | true => exact live_rearm h
    | false => exact ⟨rfl, h⟩

theorem live_afterWrite {next : Next}
    (h : (server.afterWrite token next).table.get? token = some client) :
    server.table.get? token = some client := by
  cases next with
  | close =>
    rw [afterWrite, get?_closeConnection] at h
    cases h
  | read | write => exact h

/-- A client that is live after reading goes on, with what its connection read. -/
theorem live_onReadable (h : (server.onReadable token).2.table.get? token = some client) :
    (server.onReadable token).1 = true
      ∧ ∃ before, server.table.get? token = some before
        ∧ client.connection = (before.connection.handleInput server.service).2 := by
  cases hc : server.table.get? token with
  | none =>
    rw [onReadable_of_none hc, hc] at h
    cases h
  | some before =>
    rw [onReadable_of_some hc] at h ⊢
    obtain ⟨hgoes, hlive⟩ := live_afterRead h
    rw [get?_setConnection, hc, Option.map_some, Option.some.injEq] at hlive
    exact ⟨hgoes, before, rfl, hlive ▸ rfl⟩

theorem live_onWritable (h : (server.onWritable token).table.get? token = some client) :
    ∃ before, server.table.get? token = some before
      ∧ client.connection = before.connection.handleOutput.2 := by
  cases hc : server.table.get? token with
  | none =>
    rw [onWritable_of_none hc, hc] at h
    cases h
  | some before =>
    rw [onWritable_of_some hc] at h
    have hlive := live_afterWrite h
    rw [get?_setConnection, hc, Option.map_some, Option.some.injEq] at hlive
    exact ⟨before, rfl, hlive ▸ rfl⟩

section Notification

variable {notification : Notification}

theorem live_input
    (h : (server.input notification).2.table.get? notification.token = some client) :
    (server.input notification).1 = true
      ∧ ∃ before, server.table.get? notification.token = some before
        ∧ client.connection = if notification.readable
          then (before.connection.handleInput server.service).2 else before.connection := by
  unfold input at h ⊢
  by_cases hr : notification.readable = true
  · rw [if_pos hr] at h ⊢
    simpa only [if_pos hr] using live_onReadable h
  · rw [if_neg hr] at h ⊢
    exact ⟨rfl, client, h, (if_neg hr).symm⟩

/-- **A client that is live after its notification** has the connection that the notification alone
makes of the one before. -/
theorem live_onClient
    (h : (server.onClient notification).table.get? notification.token = some client) :
    ∃ before, server.table.get? notification.token = some before
      ∧ client.connection = before.connection.attend server.service notification := by
  cases hh : notification.hangup with
  | true =>
    rw [onClient_of_hangup hh, get?_closeConnection] at h
    cases h
  | false =>
    rw [onClient_of_not_hangup hh] at h
    -- Whether output is looked at or not, the client is live after the input half.
    by_cases hgo : ((server.input notification).1 && notification.writable) = true
    · rw [if_pos hgo] at h
      have hw : notification.writable = true := (Bool.and_eq_true_iff.1 hgo).2
      obtain ⟨between, hbetween, hout⟩ := live_onWritable h
      obtain ⟨-, before, hbefore, hin⟩ := live_input hbetween
      refine ⟨before, hbefore, ?_⟩
      rw [hout, hin, Connection.attend, hh, hw]
      rfl
    · rw [if_neg hgo] at h
      obtain ⟨hgoes, before, hbefore, hin⟩ := live_input h
      have hw : notification.writable = false := by simpa [hgoes] using hgo
      refine ⟨before, hbefore, ?_⟩
      rw [hin, Connection.attend, hh, hw]
      rfl

/-! ## Who has just arrived -/

/-- A notification opens a token: it makes it live. -/
def Opens (server : Server) (notification : Notification) (token : Token) : Prop :=
  server.table.get? token = none
    ∧ ((server.dispatch notification).table.get? token).isSome = true

/-- Only the listener's notifications open tokens… -/
theorem Opens.token_eq (h : server.Opens notification token) : notification.token = listener := by
  refine Decidable.byContradiction fun hn => ?_
  obtain ⟨hnone, hsome⟩ := h
  by_cases ht : token = notification.token
  · subst ht
    rw [dispatch_of_none hn hnone, hnone] at hsome
    cases hsome
  · rw [((confined_dispatch server hn).others token ht).client, hnone] at hsome
    cases hsome

/-- …and give them the fresh connection of somebody in the backlog. -/
theorem Opens.fresh (h : server.Opens notification token) :
    ∃ fresh arrival, (server.dispatch notification).table.get? token = some fresh
      ∧ .arrived arrival ∈ server.backlog
      ∧ fresh.connection = .ofSocket (.ofScripts arrival.reads arrival.writes) := by
  have hn := h.token_eq
  obtain ⟨hnone, hsome⟩ := h
  obtain ⟨fresh, hfresh⟩ := Option.isSome_iff_exists.1 hsome
  rw [dispatch_of_listener hn] at hfresh ⊢
  by_cases hr : notification.readable = true
  · rw [if_pos hr] at hfresh ⊢
    rcases get?_acceptFrom server.backlog hfresh with hlive | ⟨arrival, hm, rfl⟩
    · rw [hnone] at hlive
      cases hlive
    · exact ⟨_, arrival, hfresh, hm, rfl⟩
  · rw [if_neg hr, hnone] at hfresh
    cases hfresh

end Notification

/-! ## Along a run -/

/-- The notifications for a token. -/
def own (token : Token) (notifications : List Notification) : List Notification :=
  notifications.filter (·.token == token)

theorem own_cons_of_eq {notification : Notification} (h : notification.token = token)
    (rest : List Notification) :
    own token (notification :: rest) = notification :: own token rest :=
  List.filter_cons_of_pos (beq_iff_eq.2 h)

theorem own_cons_of_ne {notification : Notification} (h : notification.token ≠ token)
    (rest : List Notification) : own token (notification :: rest) = own token rest :=
  List.filter_cons_of_neg (mt beq_iff_eq.1 h)

@[simp] theorem own_append (token : Token) (notifications more : List Notification) :
    own token (notifications ++ more) = own token notifications ++ own token more :=
  List.filter_append notifications more

theorem turn_cons (server : Server) (notification : Notification) (rest : List Notification) :
    server.turn (notification :: rest) = (server.dispatch notification).turn rest := rfl

theorem turn_append (server : Server) (notifications more : List Notification) :
    server.turn (notifications ++ more) = (server.turn notifications).turn more :=
  List.foldl_append

theorem ordered_turn (h : server.table.Ordered) (notifications : List Notification) :
    (server.turn notifications).table.Ordered := by
  induction notifications generalizing server with
  | nil => exact h
  | cons notification rest ih => exact ih (ordered_dispatch h notification)

theorem service_dispatch (h : server.table.Ordered) (notification : Notification) :
    (server.dispatch notification).service = server.service := by
  by_cases hn : notification.token = listener
  · exact (agree_dispatch_of_listener hn (.inl h.next)).service
  · exact (confined_dispatch server hn).service

/-- **Who is live after a run was live before it, or was opened by it**, and in either case its
connection is what its own notifications since then make of it alone. -/
inductive Lone (server : Server) (notifications : List Notification) (token : Token)
    (client : Client) : Prop
  | before (known : Client) (live : server.table.get? token = some known)
      (alone : client.connection
        = known.connection.alone server.service (own token notifications))
  | since (earlier : List Notification) (accept : Notification) (later : List Notification)
      (fresh : Client) (arrival : Arrival) (split : notifications = earlier ++ accept :: later)
      (opens : (server.turn earlier).Opens accept token)
      (live : ((server.turn earlier).dispatch accept).table.get? token = some fresh)
      (listed : .arrived arrival ∈ (server.turn earlier).backlog)
      (connection : fresh.connection = .ofSocket (.ofScripts arrival.reads arrival.writes))
      (alone : client.connection = fresh.connection.alone server.service (own token later))

/-- One notification keeps a client, attends to it, or opens its token. -/
theorem live_dispatch (h : server.table.Ordered) {notification : Notification}
    (hl : (server.dispatch notification).table.get? t = some client) :
    (∃ before, server.table.get? t = some before
        ∧ client.connection = before.connection.alone server.service (own t [notification]))
      ∨ server.Opens notification t := by
  cases hb : server.table.get? t with
  | none => exact .inr ⟨hb, hl ▸ rfl⟩
  | some before =>
    left
    have hknown : t < server.table.nextToken := by
      refine Nat.lt_of_not_le fun hle => ?_
      rw [h.get?_of_le hle] at hb
      cases hb
    by_cases ht : notification.token = t
    · have hn : notification.token ≠ listener := by
        rintro hn
        rw [← ht, hn, h.get?_listener] at hb
        cases hb
      subst ht
      rw [dispatch_of_ne hn] at hl
      obtain ⟨before', hb', hc⟩ := live_onClient hl
      obtain rfl : before = before' := Option.some.inj (hb.symm.trans hb')
      rw [own_cons_of_eq rfl]
      exact ⟨before, rfl, hc⟩
    · rw [(agree_dispatch_of_ne ht (.inl hknown)).client, hb, Option.some.injEq] at hl
      rw [own_cons_of_ne ht]
      exact ⟨before, rfl, hl ▸ rfl⟩

/-- **A live client is what its own notifications alone make of it.** -/
theorem live_turn (h : server.table.Ordered) (notifications : List Notification)
    (hl : (server.turn notifications).table.get? t = some client) :
    server.Lone notifications t client := by
  induction notifications generalizing server with
  | nil => exact .before client hl rfl
  | cons notification rest ih =>
    have hservice := service_dispatch h notification
    cases ih (ordered_dispatch h notification) hl with
    | since earlier accept later fresh arrival split opens live listed connection alone =>
      exact .since (notification :: earlier) accept later fresh arrival
        (congrArg (notification :: ·) split) opens live listed connection (hservice ▸ alone)
    | before known live alone =>
      rw [hservice] at alone
      rcases live_dispatch h live with ⟨first, hfirst, hknown⟩ | hopens
      · refine .before first hfirst ?_
        rw [alone, hknown, Connection.alone, Connection.alone, Connection.alone,
          ← List.foldl_append, ← own_append]
        rfl
      · obtain ⟨fresh, arrival, hfresh, hm, hc⟩ := hopens.fresh
        obtain rfl : fresh = known := Option.some.inj (hfresh.symm.trans live)
        exact .since [] notification rest fresh arrival rfl hopens hfresh hm hc alone

end Server

end TrackServer
