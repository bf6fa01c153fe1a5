import TrackServer.Proofs.WellFormed

/-!
# Proofs/Wakeup — no wakeup is lost

Readiness is reported by its edges: once when a token is registered, be it anew, and then each time
that a direction in which an attempt would have blocked becomes ready.  So a client that waits in a
direction is woken only if it is registered for it and has either not tried it since, or would have
blocked when it last did: it is `Armed`.

A report that is not acted upon would be lost as well.  `Leaves` says what a notification leaves of
each live client: the directions that it reports are exhausted, and no other is touched.

* `no_wakeup_lost`: both hold of every server that can come about, and of all its notifications.
-/

namespace TrackServer.Server

variable {server : Server} {token : Token} {client : Client} {connection : Connection}
  {notification : Notification}

/-- **Armed for the direction waited on.**  A connection that receives is registered for input and
has not read yet, or would block; one that sends is registered for output as well and has not
written yet, or would block with bytes left. -/
inductive Armed (server : Server) (token : Token) (connection : Connection) : Prop
  | input (phase : connection.phase = .receiving)
      (registered : server.registry.lookup token = some .input)
      (waits : connection.socket.inlet.log = [] ∨ connection.ReadBlocked)
  | output (sender : Sender) (phase : connection.phase = .sending sender)
      (registered : server.registry.lookup token = some .inputAndOutput)
      (waits : connection.socket.outlet.log = [] ∨ connection.WriteBlocked sender)

/-- What is kept under a live token is armed: poised connections wait as they should, and they are
registered for what they need. -/
theorem Kept.armed (h : Kept token server) (live : server.table.get? token = some client) :
    server.Armed token client.connection := by
  obtain ⟨poised, unfinished, registered⟩ := h.live live
  cases poised with
  | receiving phase _ _ waits =>
    refine .input phase ?_ waits
    rw [registered, Connection.needs, phase]
    rfl
  | sending sender phase waits =>
    refine .output sender phase ?_ waits
    rw [registered, Connection.needs, phase]
    rfl
  | closing phase => exact absurd (Connection.needs_of_closing phase) unfinished

/-- **What a notification leaves of a live client.**  One that it took in has tried neither
direction; one that it is for has exhausted those that it reports; any other is as it was. -/
inductive Leaves (server : Server) (notification : Notification) (token : Token)
    (connection : Connection) : Prop
  | opened (vacant : server.table.get? token = none)
      (unread : connection.socket.inlet.log = []) (unwritten : connection.socket.outlet.log = [])
  | attended (before : Client) (live : server.table.get? token = some before)
      (own : notification.token = token)
      (exhausts : Connection.Exhausts notification.readable notification.writable
        before.connection connection)
  | untouched (before : Client) (live : server.table.get? token = some before)
      (other : notification.token ≠ token) (same : connection = before.connection)

theorem leaves_of_live (h : server.table.Ordered)
    (live : (server.dispatch notification).table.get? token = some client) :
    server.Leaves notification token client.connection := by
  rcases live_dispatch h live with ⟨before, hbefore, hconnection⟩ | hopens
  · by_cases ht : notification.token = token
    · refine .attended before hbefore ht ?_
      rw [hconnection, own_cons_of_eq ht]
      exact Connection.exhausts_attend server.service before.connection notification
    · refine .untouched before hbefore ht ?_
      rw [hconnection, own_cons_of_ne ht]
      rfl
  · obtain ⟨fresh, arrival, hfresh, -, hconnection⟩ := hopens.fresh
    obtain rfl : fresh = client := Option.some.inj (hfresh.symm.trans live)
    rw [hconnection]
    exact .opened hopens.1 rfl rfl

/-- **No wakeup is lost.**  Every live client is armed for the direction that it waits on, also
after any notification; and a direction that a notification reports is tried until it would block,
if the client still waits on it. -/
theorem no_wakeup_lost (h : Reachable server) :
    (∀ token client, server.table.get? token = some client →
      server.Armed token client.connection)
    ∧ ∀ notification token client,
      (server.dispatch notification).table.get? token = some client →
        (server.dispatch notification).Armed token client.connection
          ∧ server.Leaves notification token client.connection :=
  ⟨fun token _ live => (h.keepsAll.kept token).armed live, fun notification token _ live =>
    ⟨((h.keepsAll.dispatch notification).kept token).armed live, leaves_of_live h.ordered live⟩⟩

/-- The two clients that waited, taken in: the first is refused, over a write that blocks, and
nothing has come from the second one. -/
def oneRefused : Server :=
  twoWaiting.turn [⟨0, true, false, false⟩, ⟨1, true, true, false⟩]

/-- The first client waits for output, and the second, once its input was looked at, for input. -/
theorem no_wakeup_lost_one_refused :
    Reachable oneRefused
      ∧ oneRefused.registry = [(1, .inputAndOutput), (2, .input)]
      ∧ (∃ client, oneRefused.table.get? 1 = some client ∧ oneRefused.Armed 1 client.connection)
      ∧ ∃ client, (oneRefused.dispatch ⟨2, true, false, false⟩).table.get? 2 = some client
        ∧ oneRefused.Leaves ⟨2, true, false, false⟩ 2 client.connection := by
  have hreachable : Reachable oneRefused := .turn _ (.bound _ _)
  have hfirst : (oneRefused.table.get? 1).isSome = true := by decide +kernel
  have hsecond : ((oneRefused.dispatch ⟨2, true, false, false⟩).table.get? 2).isSome = true := by
    decide +kernel
  obtain ⟨first, hfirst⟩ := Option.isSome_iff_exists.1 hfirst
  obtain ⟨second, hsecond⟩ := Option.isSome_iff_exists.1 hsecond
  obtain ⟨harmed, hleaves⟩ := no_wakeup_lost hreachable
  exact ⟨hreachable, by decide +kernel, ⟨first, hfirst, harmed 1 first hfirst⟩, second, hsecond,
    (hleaves _ 2 second hsecond).2⟩

end TrackServer.Server
