import TrackServer.Proofs.WellFormed

/-!
# Proofs/Closed — closed stays closed

A batch is fetched before it is dispatched, so notifications still come for tokens that were closed
meanwhile, perhaps after new clients were accepted.  They find nothing: a token that was handed out
and is not live (`Spent`) stays so in all that comes of the server (`Spent.later`), its connection
is kept as it was closed, and no accept hands it out again (`handedOut_eq_range`).

How a connection is closed is told by `closed_dispatch`: with what its handlers left of it.

* `closed_stays_closed`: this, for every client of a server that can come about; and a hang-up
  closes before anything is read or written, input that closes before anything is written.
-/

namespace TrackServer

/-- A notification without its report of output readiness. -/
def Notification.withoutOutput (notification : Notification) : Notification :=
  { notification with writable := false }

namespace Server

variable {server now after : Server} {token : Token} {client : Client}
  {notification : Notification}

/-! ## What comes of a server -/

/-- **What comes of a server** by notifications, in one batch or in many.  Between them the files
may change, and more clients and more results on the sockets may come. -/
inductive Later (server : Server) : Server → Prop
  | now : Later server server
  | dispatched {after : Server} (notification : Notification) (h : Later server after) :
    Later server (after.dispatch notification)
  | changed {after : Server} (files : FileSystem) (h : Later server after) :
    Later server { after with service := { after.service with files } }
  | queued {after : Server} (more : List AcceptResult) (h : Later server after) :
    Later server { after with backlog := after.backlog ++ more }
  | supplied {after : Server} {token : Token} {client : Client}
      (live : after.table.get? token = some client) (reads : List ReadResult)
      (writes : List WriteStep) (h : Later server after) :
    Later server (after.setConnection token (client.connection.extendScripts reads writes))

/-- What comes of a server that can come about can come about. -/
theorem Later.reachable (hl : Later server after) (h : Reachable server) : Reachable after := by
  induction hl with
  | now => exact h
  | dispatched notification _ ih => exact .turn [notification] ih
  | changed files _ ih => exact .changed files ih
  | queued more _ ih => exact .queued more ih
  | supplied live reads writes _ ih => exact .supplied live reads writes ih

/-- Whole batches are dispatched one by one. -/
theorem Later.turn (hl : Later server after) (batch : List Notification) :
    Later server (after.turn batch) := by
  induction batch generalizing after with
  | nil => exact hl
  | cons notification rest ih => exact ih (hl.dispatched notification)

/-! ## Spent tokens -/

/-- **A spent token**: a client's, handed out, and not live. -/
structure Spent (token : Token) (server : Server) : Prop where
  above : listener < token
  below : token < server.table.nextToken
  vacant : server.table.get? token = none

/-- One notification leaves a spent token alone… -/
theorem Spent.dispatch (h : Spent token server) (notification : Notification) :
    Spent token (server.dispatch notification)
      ∧ (server.dispatch notification).closed.lookup token = server.closed.lookup token := by
  have hagree : Agree token (server.dispatch notification) server :=
    agree_turn_of_none h.vacant [notification] (.inl h.below)
  refine ⟨⟨h.above, ?_, hagree.client.trans h.vacant⟩, hagree.closed⟩
  exact Nat.lt_of_lt_of_le h.below (nextToken_le_dispatch server notification)

/-- **…and so does all that comes of the server**: it stays spent, with the connection that was
closed under it. -/
theorem Spent.later (h : Spent token server) (hl : Later server after) :
    Spent token after ∧ after.closed.lookup token = server.closed.lookup token := by
  induction hl with
  | now => exact ⟨h, rfl⟩
  | dispatched notification _ ih =>
    obtain ⟨hspent, hclosed⟩ := ih.1.dispatch notification
    exact ⟨hspent, hclosed.trans ih.2⟩
  | changed | queued => rename_i ih; exact ⟨⟨ih.1.above, ih.1.below, ih.1.vacant⟩, ih.2⟩
  | @supplied after t client live reads writes _ ih =>
    have ht : token ≠ t := fun ht => by
      rw [← ht, ih.1.vacant] at live
      cases live
    have hother := (confined_setConnection after t
      (client.connection.extendScripts reads writes)).others token ht
    exact ⟨⟨ih.1.above, ih.1.below, hother.client.trans ih.1.vacant⟩, hother.closed.trans ih.2⟩

/-- The tokens that accepting hands out, over the results to come. -/
def handedOut (server : Server) : List AcceptResult → List Token
  | [] => []
  | .arrived arrival :: rest => server.table.reserve.1 :: (server.enroll arrival).handedOut rest
  | .interrupted :: rest => server.handedOut rest
  | .aborted :: rest => server.handedOut rest
  | .wouldBlock :: _ => []
  | .failed _ :: _ => []

/-- **Accepting hands out the next tokens in order**, each once. -/
theorem handedOut_eq_range (server : Server) (results : List AcceptResult) :
    server.handedOut results = List.range' server.table.nextToken
      ((server.acceptFrom results).table.nextToken - server.table.nextToken) := by
  induction results generalizing server with
  | nil => rw [handedOut, acceptFrom, Nat.sub_self, List.range'_zero]
  | cons result rest ih =>
    cases result with
    | arrived arrival =>
      have hle := nextToken_le_acceptFrom (server.enroll arrival) rest
      have hnext := ih (server.enroll arrival)
      rw [nextToken_enroll] at hle hnext
      have hcount : (server.acceptFrom (.arrived arrival :: rest)).table.nextToken
            - server.table.nextToken
          = ((server.enroll arrival).acceptFrom rest).table.nextToken
            - (server.table.nextToken + 1) + 1 :=
        (Nat.add_sub_add_right _ 1 _).symm.trans (Nat.sub_add_comm hle)
      rw [handedOut, hnext, hcount, List.range'_succ]
      rfl
    | interrupted | aborted => exact ih server
    | wouldBlock | failed => rw [handedOut, acceptFrom, Nat.sub_self, List.range'_zero]

/-- So a token that was handed out before is not handed out again. -/
theorem notMem_handedOut (h : token < server.table.nextToken) (results : List AcceptResult) :
    token ∉ server.handedOut results := by
  rw [handedOut_eq_range, List.mem_range'_1]
  exact fun hm => Nat.not_lt_of_le hm.1 h

/-! ## How a connection is closed -/

/-- A connection is closed as it is. -/
theorem closed_closeConnection (live : server.table.get? token = some client) :
    (server.closeConnection token).closed.lookup token = some client.connection.close := by
  rw [closeConnection_of_some live]
  exact List.lookup_cons_self

theorem closed_rearm (live : server.table.get? token = some client)
    (gone : (server.rearm token).2.table.get? token = none) :
    (server.rearm token).2.closed.lookup token = some client.connection.close := by
  unfold rearm at gone ⊢
  rw [live] at gone ⊢
  dsimp only at gone ⊢
  split
  · next hr =>
    rw [if_pos hr] at gone
    exact nomatch live.symm.trans gone
  · exact closed_closeConnection live

theorem closed_afterRead {wasReceiving : Bool} {next : Next}
    (live : server.table.get? token = some client)
    (gone : (server.afterRead token wasReceiving next).2.table.get? token = none) :
    (server.afterRead token wasReceiving next).2.closed.lookup token
      = some client.connection.close := by
  cases next with
  | close => exact closed_closeConnection live
  | read => exact nomatch live.symm.trans gone
  | write =>
    cases wasReceiving with
    | true => exact closed_rearm live gone
    | false => exact nomatch live.symm.trans gone

theorem closed_afterWrite {next : Next} (live : server.table.get? token = some client)
    (gone : (server.afterWrite token next).table.get? token = none) :
    (server.afterWrite token next).closed.lookup token = some client.connection.close := by
  cases next with
  | close => exact closed_closeConnection live
  | read | write => exact nomatch live.symm.trans gone

/-- **Input that closes a connection closes what reading left of it**… -/
theorem closed_onReadable (live : server.table.get? token = some client)
    (gone : (server.onReadable token).2.table.get? token = none) :
    (server.onReadable token).2.closed.lookup token
      = some (client.connection.handleInput server.service).2.close := by
  rw [onReadable_of_some live] at gone ⊢
  exact closed_afterRead (get?_setConnection_of_some live _) gone

/-- …and output what writing left of it. -/
theorem closed_onWritable (live : server.table.get? token = some client)
    (gone : (server.onWritable token).table.get? token = none) :
    (server.onWritable token).closed.lookup token
      = some client.connection.handleOutput.2.close := by
  rw [onWritable_of_some live] at gone ⊢
  exact closed_afterWrite (get?_setConnection_of_some live _) gone

theorem closed_input (live : server.table.get? notification.token = some client)
    (gone : (server.input notification).2.table.get? notification.token = none) :
    (server.input notification).2.closed.lookup notification.token
      = some (client.connection.handleInput server.service).2.close := by
  unfold input at gone ⊢
  split
  · next hr =>
    rw [if_pos hr] at gone
    exact closed_onReadable live gone
  · next hr =>
    rw [if_neg hr] at gone
    exact nomatch live.symm.trans gone

/-- Without its report of output a notification has its input half only… -/
theorem onClient_withoutOutput (hangup : notification.hangup = false) :
    server.onClient notification.withoutOutput = (server.input notification).2 := by
  have hclient := @onClient_of_not_hangup server notification.withoutOutput hangup
  rwa [show notification.withoutOutput.writable = false from rfl, Bool.and_false,
    if_neg Bool.false_ne_true] at hclient

/-- …and one whose input half closes the connection ends there. -/
theorem onClient_of_input_closes (hangup : notification.hangup = false)
    (gone : (server.input notification).2.table.get? notification.token = none) :
    server.onClient notification = (server.input notification).2 := by
  rw [onClient_of_not_hangup hangup, onWritable_of_none gone, ite_self]

/-- **A notification that closes a connection closes what its handlers left of it.** -/
theorem closed_onClient (live : server.table.get? notification.token = some client)
    (gone : (server.onClient notification).table.get? notification.token = none) :
    ∃ connection, (server.onClient notification).closed.lookup notification.token
      = some (connection : Connection).close := by
  cases hangup : notification.hangup with
  | true =>
    rw [onClient_of_hangup hangup]
    exact ⟨_, closed_closeConnection live⟩
  | false =>
    cases hinput : (server.input notification).2.table.get? notification.token with
    | none =>
      rw [onClient_of_input_closes hangup hinput]
      exact ⟨_, closed_input live hinput⟩
    | some between =>
      rw [onClient_of_not_hangup hangup] at gone ⊢
      split
      · next hgo =>
        rw [if_pos hgo] at gone
        exact ⟨_, closed_onWritable hinput gone⟩
      · next hgo =>
        rw [if_neg hgo] at gone
        exact nomatch hinput.symm.trans gone

/-- A live client's token is a client's, and handed out. -/
theorem lt_nextToken_of_live (h : server.table.Ordered)
    (live : server.table.get? token = some client) :
    listener < token ∧ token < server.table.nextToken := by
  have hm : token ∈ server.table.tokens := Decidable.byContradiction fun hn =>
    nomatch live.symm.trans (Table.get?_eq_none_iff.2 hn)
  exact ⟨h.above token hm, h.below token hm⟩

/-- **A live client stays live or is closed**, and then its token is spent. -/
theorem closed_dispatch (h : server.table.Ordered) (live : server.table.get? token = some client)
    (notification : Notification)
    (gone : (server.dispatch notification).table.get? token = none) :
    Spent token (server.dispatch notification)
      ∧ ∃ connection, (server.dispatch notification).closed.lookup token
        = some (connection : Connection).close := by
  obtain ⟨habove, hbelow⟩ := lt_nextToken_of_live h live
  refine ⟨⟨habove, Nat.lt_of_lt_of_le hbelow (nextToken_le_dispatch server notification), gone⟩, ?_⟩
  by_cases ht : notification.token = token
  · subst ht
    rw [dispatch_of_ne (Nat.ne_of_gt habove)] at gone ⊢
    exact closed_onClient live gone
  · have hsame := (agree_dispatch_of_ne ht (.inl hbelow)).client
    exact nomatch live.symm.trans (hsame.symm.trans gone)

/-! ## From then on -/

/-- **What becomes of a client**: it is live, or its connection was closed and its token is
spent. -/
inductive Fate (token : Token) (server : Server) : Prop
  | live (client : Client) (live : server.table.get? token = some client)
  | closed (connection : Connection) (finished : connection.isClosing = true)
      (closed : server.closed.lookup token = some connection) (spent : Spent token server)

/-- What comes of a server leaves a closed connection closed. -/
theorem Fate.closed_later {connection : Connection} (finished : connection.isClosing = true)
    (closed : server.closed.lookup token = some connection) (spent : Spent token server)
    (hl : Later server after) : Fate token after := by
  obtain ⟨hspent, hsame⟩ := spent.later hl
  exact .closed connection finished (hsame.trans closed) hspent

/-- **A client is live or closed in all that comes of its server.** -/
theorem fate_of_later (h : Reachable server) (live : server.table.get? token = some client)
    (hl : Later server after) : Fate token after := by
  induction hl with
  | now => exact .live client live
  | @dispatched after notification hl ih =>
    cases ih with
    | closed connection finished closed spent =>
      exact .closed_later finished closed spent (.dispatched notification .now)
    | live before hbefore =>
      cases hafter : (after.dispatch notification).table.get? token with
      | some client => exact .live client hafter
      | none =>
        obtain ⟨hspent, connection, hclosed⟩ :=
          closed_dispatch (hl.reachable h).ordered hbefore notification hafter
        exact .closed _ (by rw [Connection.isClosing, Connection.phase_close]) hclosed hspent
  | changed files _ ih =>
    cases ih with
    | live before hbefore => exact .live before hbefore
    | closed connection finished closed spent =>
      exact .closed_later finished closed spent (.changed files .now)
  | queued more _ ih =>
    cases ih with
    | live before hbefore => exact .live before hbefore
    | closed connection finished closed spent =>
      exact .closed_later finished closed spent (.queued more .now)
  | @supplied after t other hother reads writes _ ih =>
    cases ih with
    | closed connection finished closed spent =>
      exact .closed_later finished closed spent (.supplied hother reads writes .now)
    | live before hbefore =>
      by_cases ht : token = t
      · subst ht
        exact .live _ (get?_setConnection_of_some hother _)
      · have hsame := ((confined_setConnection after t
          (other.connection.extendScripts reads writes)).others token ht).client
        exact .live before (hsame.trans hbefore)

/-- **A connection that stays closed** from a moment on.  In all that comes of the server its token
is not live, its socket is as it was when it was closed, notifications for the token change nothing,
and no accept hands it out. -/
structure StaysClosed (token : Token) (connection : Connection) (now : Server) : Prop where
  finished : connection.isClosing = true
  vacant : ∀ {after}, Later now after → after.table.get? token = none
  untouched : ∀ {after}, Later now after → after.closed.lookup token = some connection
  unheard : ∀ {after notification}, Later now after → notification.token = token →
    after.dispatch notification = after
  unissued : ∀ {after}, Later now after → ∀ results, token ∉ after.handedOut results

theorem Spent.staysClosed {connection : Connection} (spent : Spent token now)
    (finished : connection.isClosing = true)
    (closed : now.closed.lookup token = some connection) : StaysClosed token connection now where
  finished := finished
  vacant hl := (spent.later hl).1.vacant
  untouched hl := (spent.later hl).2.trans closed
  unheard hl ht := by
    obtain ⟨habove, -, hvacant⟩ := (spent.later hl).1
    subst ht
    exact dispatch_of_none (Nat.ne_of_gt habove) hvacant
  unissued hl results := notMem_handedOut (spent.later hl).1.below results

/-- A hang-up closes a connection as it is. -/
theorem closed_dispatch_of_hangup (h : server.table.Ordered)
    (live : server.table.get? token = some client) (ht : notification.token = token)
    (hangup : notification.hangup = true) :
    (server.dispatch notification).table.get? token = none
      ∧ (server.dispatch notification).closed.lookup token = some client.connection.close := by
  subst ht
  rw [dispatch_of_ne (Nat.ne_of_gt (lt_nextToken_of_live h live).1), onClient_of_hangup hangup]
  exact ⟨get?_closeConnection server _, closed_closeConnection live⟩

/-- Input that closes a connection leaves its output direction as it was, and output readiness is
not looked at. -/
theorem closed_dispatch_of_input (h : server.table.Ordered)
    (live : server.table.get? token = some client) (ht : notification.token = token)
    (gone : (server.dispatch notification.withoutOutput).table.get? token = none) :
    server.dispatch notification = server.dispatch notification.withoutOutput
      ∧ ∃ connection, (server.dispatch notification).closed.lookup token = some connection
        ∧ connection.socket.outlet = client.connection.socket.outlet := by
  subst ht
  have hne := Nat.ne_of_gt (lt_nextToken_of_live h live).1
  have hwithout : server.dispatch notification.withoutOutput
      = server.onClient notification.withoutOutput := dispatch_of_ne hne
  rw [hwithout] at gone ⊢
  rw [dispatch_of_ne hne]
  cases hangup : notification.hangup with
  | true =>
    have hsame : server.onClient notification.withoutOutput
        = server.closeConnection notification.token := onClient_of_hangup hangup
    rw [onClient_of_hangup hangup, hsame]
    exact ⟨rfl, _, closed_closeConnection live, by rw [Connection.socket_close]⟩
  | false =>
    rw [onClient_withoutOutput hangup] at gone ⊢
    rw [onClient_of_input_closes hangup gone]
    refine ⟨rfl, _, closed_input live gone, ?_⟩
    rw [Connection.socket_close, Connection.outlet_handleInput]

/-- **Closed stays closed**, for every client of a server that can come about.  Once it is not live
any more, its connection stays closed.  A hang-up closes it with nothing read or written; and if the
input that a notification reports closes it, the output that it reports is not looked at. -/
theorem closed_stays_closed (h : Reachable server)
    (live : server.table.get? token = some client) :
    (∀ now, Later server now → now.table.get? token = none →
      ∃ connection, StaysClosed token connection now)
    ∧ (∀ notification, notification.token = token → notification.hangup = true →
      (server.dispatch notification).table.get? token = none
        ∧ ∃ connection, (server.dispatch notification).closed.lookup token = some connection
          ∧ connection.socket = client.connection.socket)
    ∧ ∀ notification, notification.token = token →
      (server.dispatch notification.withoutOutput).table.get? token = none →
        server.dispatch notification = server.dispatch notification.withoutOutput
          ∧ ∃ connection, (server.dispatch notification).closed.lookup token = some connection
            ∧ connection.socket.outlet = client.connection.socket.outlet := by
  refine ⟨fun now hl gone => ?_, fun notification ht hangup => ?_, fun notification ht gone => ?_⟩
  · cases fate_of_later h live hl with
    | live client hlive => exact nomatch hlive.symm.trans gone
    | closed connection finished closed spent =>
      exact ⟨connection, spent.staysClosed finished closed⟩
  · obtain ⟨hgone, hclosed⟩ := closed_dispatch_of_hangup h.ordered live ht hangup
    exact ⟨hgone, _, hclosed, Connection.socket_close⟩
  · exact closed_dispatch_of_input h.ordered live ht gone

/-- The first of the two clients that waited hangs up in a notification that reports all else too;
one that comes for it later changes nothing. -/
theorem closed_stays_closed_hang_up :
    Reachable (twoWaiting.turn [⟨0, true, false, false⟩])
      ∧ (∃ client, (twoWaiting.turn [⟨0, true, false, false⟩]).table.get? 1 = some client)
      ∧ ((twoWaiting.turn [⟨0, true, false, false⟩]).dispatch ⟨1, true, true, true⟩).table.get? 1
        = none
      ∧ (twoWaiting.turn [⟨0, true, false, false⟩, ⟨1, true, true, true⟩]).dispatch
          ⟨1, true, true, false⟩
        = twoWaiting.turn [⟨0, true, false, false⟩, ⟨1, true, true, true⟩] := by
  have hreachable : Reachable (twoWaiting.turn [⟨0, true, false, false⟩]) := .turn _ (.bound _ _)
  have hlive : ((twoWaiting.turn [⟨0, true, false, false⟩]).table.get? 1).isSome = true := by
    decide +kernel
  obtain ⟨client, hlive⟩ := Option.isSome_iff_exists.1 hlive
  obtain ⟨hlater, hhangup, -⟩ := closed_stays_closed hreachable hlive
  have hgone := (hhangup ⟨1, true, true, true⟩ rfl rfl).1
  obtain ⟨connection, hstays⟩ := hlater _ (.dispatched ⟨1, true, true, true⟩ .now) hgone
  exact ⟨hreachable, ⟨client, hlive⟩, hgone, hstays.unheard .now rfl⟩

end Server

end TrackServer
