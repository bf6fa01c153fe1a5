import TrackServer.Proofs.Alone

/-!
# Proofs/Interleaving — clients do not affect each other

What a run leaves under a token depends on three things: what was there, the notifications for it,
and, if it was handed out meanwhile, the notification that did so (`agree_turn`,
`Agree.dispatch_of_door`).  A `Reordering` keeps all of them, so it leaves the same under every
token (`agree_turn_of_reordering`).

* `turns_independent_of_order`: from any `Reachable` server, the table does not depend on the order
  in which clients' notifications come, nor on how they are cut into batches, and each client is
  what its own notifications alone make of it.
-/

namespace TrackServer.Server

variable {server other : Server} {t : Token} {notifications reordered : List Notification}

/-! ## Reachable servers -/

/-- **The servers that can come about**, from one that has just begun to listen.  Between turns the
files may change, and more clients and more results on the sockets may come. -/
inductive Reachable : Server → Prop
  | bound (service : Service) (backlog : List AcceptResult) :
    Reachable { ofService service with backlog }
  | turn {server : Server} (batch : List Notification) (h : Reachable server) :
    Reachable (server.turn batch)
  | changed {server : Server} (files : FileSystem) (h : Reachable server) :
    Reachable { server with service := { server.service with files } }
  | queued {server : Server} (more : List AcceptResult) (h : Reachable server) :
    Reachable { server with backlog := server.backlog ++ more }
  | supplied {server : Server} {token : Token} {client : Client}
      (live : server.table.get? token = some client) (reads : List ReadResult)
      (writes : List WriteStep) (h : Reachable server) :
    Reachable (server.setConnection token (client.connection.extendScripts reads writes))

/-- The table of a reachable server is in order. -/
theorem Reachable.ordered (h : Reachable server) : server.table.Ordered := by
  induction h with
  | bound => exact Table.ordered_empty
  | turn batch _ ih => exact ordered_turn ih batch
  | changed | queued => assumption
  | supplied live reads writes _ ih => exact (confined_setConnection _ _ _).ordered ih

/-! ## What a run leaves under a token -/

theorem nextToken_le_turn (server : Server) (notifications : List Notification) :
    server.table.nextToken ≤ (server.turn notifications).table.nextToken := by
  induction notifications generalizing server with
  | nil => exact Nat.le_refl _
  | cons notification rest ih =>
    exact Nat.le_trans (nextToken_le_dispatch server notification) (ih _)

/-- What the notifications for a token preserve, and the others do not see, is kept along a run of
which one side gets the former only. -/
theorem turn_own {R : Server → Server → Prop}
    (hown : ∀ {server other : Server} {notification : Notification}, notification.token = t →
      R server other → R (server.dispatch notification) (other.dispatch notification))
    (hothers : ∀ {server other : Server} {notification : Notification}, notification.token ≠ t →
      R server other → R (server.dispatch notification) other)
    (h : R server other) (notifications : List Notification) :
    R (server.turn notifications) (other.turn (own t notifications)) := by
  induction notifications generalizing server other with
  | nil => exact h
  | cons notification rest ih =>
    by_cases ht : notification.token = t
    · rw [own_cons_of_eq ht]
      exact ih (hown ht h)
    · rw [own_cons_of_ne ht]
      exact ih (hothers ht h)

/-- The door after a run depends on the listener's notifications only. -/
theorem door_turn (server : Server) (notifications : List Notification) :
    (server.turn notifications).door = (server.turn (own listener notifications)).door :=
  @turn_own server server listener (fun server other => server.door = other.door)
    door_dispatch (fun hn h => (door_dispatch_of_ne _ hn).trans h) rfl notifications

/-- **What is under a known token after a run depends on its own notifications only.** -/
theorem agree_turn (h : Agree t server other) (hs : t < server.table.nextToken)
    (ho : t < other.table.nextToken) (notifications : List Notification) :
    Agree t (server.turn notifications) (other.turn (own t notifications)) := by
  refine (@turn_own server other t (fun server other => Agree t server other
    ∧ t < server.table.nextToken ∧ t < other.table.nextToken) ?_ ?_ ⟨h, hs, ho⟩ notifications).1
  · intro server other notification hn ⟨h, hs, ho⟩
    exact ⟨h.dispatch hn hs ho, Nat.lt_of_lt_of_le hs (nextToken_le_dispatch server notification),
      Nat.lt_of_lt_of_le ho (nextToken_le_dispatch other notification)⟩
  · intro server other notification hn ⟨h, hs, ho⟩
    exact ⟨(agree_dispatch_of_ne hn (.inl hs)).trans h,
      Nat.lt_of_lt_of_le hs (nextToken_le_dispatch server notification), ho⟩

theorem agree_turn_of_own_eq (h : Agree t server other) (hs : t < server.table.nextToken)
    (ho : t < other.table.nextToken) (hn : own t notifications = own t reordered) :
    Agree t (server.turn notifications) (other.turn reordered) := by
  refine (agree_turn h hs ho notifications).trans ?_
  rw [hn]
  exact (agree_turn (.refl other) ho ho reordered).symm

/-- **A token that is not live is left alone** by a run that does not hand it out. -/
theorem agree_turn_of_none (hlive : server.table.get? t = none) (notifications : List Notification)
    (ht : t < server.table.nextToken ∨ (server.turn notifications).table.nextToken ≤ t) :
    Agree t (server.turn notifications) server := by
  induction notifications generalizing server with
  | nil => exact .refl server
  | cons notification rest ih =>
    have hthere : t < server.table.nextToken
        ∨ (server.dispatch notification).table.nextToken ≤ t :=
      ht.imp id (Nat.le_trans (nextToken_le_turn _ rest))
    have hfirst : Agree t (server.dispatch notification) server := by
      by_cases hn : notification.token = listener
      · exact agree_dispatch_of_listener hn hthere
      · by_cases hown : notification.token = t
        · rw [dispatch_of_none hn (hown ▸ hlive)]
          exact .refl server
        · exact agree_dispatch_of_ne hown hthere
    refine (ih (hfirst.client.trans hlive) (ht.imp (fun hlt => ?_) id)).trans hfirst
    exact Nat.lt_of_lt_of_le hlt (nextToken_le_dispatch server notification)

/-- Known to both sides, a token need only get the same notifications if it is live. -/
theorem agree_turn_of_live (h : Agree t server other) (hs : t < server.table.nextToken)
    (ho : t < other.table.nextToken)
    (hn : other.table.get? t ≠ none → own t notifications = own t reordered) :
    Agree t (server.turn notifications) (other.turn reordered) := by
  by_cases hlive : other.table.get? t = none
  · exact ((agree_turn_of_none (h.client.trans hlive) notifications (.inl hs)).trans h).trans
      (agree_turn_of_none hlive reordered (.inl ho)).symm
  · exact agree_turn_of_own_eq h hs ho (hn hlive)

/-- A token that a run hands out is handed out by one of its notifications. -/
theorem exists_handing_out (hle : server.table.nextToken ≤ t)
    (hlt : t < (server.turn notifications).table.nextToken) :
    ∃ earlier accept later, notifications = earlier ++ accept :: later
      ∧ (server.turn earlier).table.nextToken ≤ t
      ∧ t < ((server.turn earlier).dispatch accept).table.nextToken := by
  induction notifications generalizing server with
  | nil => exact absurd hlt (Nat.not_lt_of_le hle)
  | cons notification rest ih =>
    by_cases hnow : t < (server.dispatch notification).table.nextToken
    · exact ⟨[], notification, rest, rfl, hle, hnow⟩
    · obtain ⟨earlier, accept, later, rfl, hbefore, hafter⟩ := ih (Nat.le_of_not_lt hnow) hlt
      exact ⟨notification :: earlier, accept, later, rfl, hbefore, hafter⟩

/-! ## Reorderings -/

/-- **A reordering that a server cannot tell apart**: the notifications for each token, the
listener's among them, stay in order, and so does the notification that opens a token with those for
that token. -/
structure Reordering (server : Server) (notifications reordered : List Notification) : Prop where
  each : ∀ token, own token reordered = own token notifications
  accepts : ∀ {earlier later earlier' later' : List Notification} {accept : Notification},
    notifications = earlier ++ accept :: later → reordered = earlier' ++ accept :: later' →
    own listener earlier' = own listener earlier →
    ∀ token, (server.turn earlier).Opens accept token → own token earlier' = own token earlier

/-- A reordering is one: it has the same notifications, each as often. -/
theorem Reordering.perm (h : Reordering server notifications reordered) :
    reordered.Perm notifications := by
  refine List.perm_iff_count.2 fun notification => ?_
  have hcount (list : List Notification) :
      (own notification.token list).count notification = list.count notification :=
    List.count_filter (beq_self_eq_true _)
  rw [← hcount, h.each, hcount]

/-- The listener's notifications correspond. -/
theorem Reordering.split {earlier later : List Notification} {accept : Notification}
    (h : Reordering server (earlier ++ accept :: later) reordered)
    (ha : accept.token = listener) :
    ∃ earlier' later', reordered = earlier' ++ accept :: later'
      ∧ own listener earlier' = own listener earlier := by
  have hall := h.each listener
  rw [own_append, own_cons_of_eq ha] at hall
  obtain ⟨front, back, rfl, hfront, hback⟩ := List.filter_eq_append_iff.1 hall
  obtain ⟨between, later', rfl, hbetween, -, -⟩ := List.filter_eq_cons_iff.1 hback
  refine ⟨front ++ between, later', (List.append_assoc _ _ _).symm, ?_⟩
  have hnone : own listener between = [] := List.filter_eq_nil_iff.2 hbetween
  rw [own_append, hnone, List.append_nil]
  exact hfront

/-- **A reordering leaves the same under every token.** -/
theorem agree_turn_of_reordering (ho : server.table.Ordered)
    (h : Reordering server notifications reordered) (t : Token) :
    Agree t (server.turn reordered) (server.turn notifications) := by
  by_cases hknown : t < server.table.nextToken
  · exact agree_turn_of_own_eq (.refl server) hknown hknown (h.each t)
  have hle := Nat.le_of_not_lt hknown
  have hdoor {some more : List Notification} (hs : own listener some = own listener more) :
      (server.turn some).door = (server.turn more).door := by
    rw [door_turn, hs, ← door_turn]
  by_cases hlater : (server.turn notifications).table.nextToken ≤ t
  · have hlater' : (server.turn reordered).table.nextToken ≤ t :=
      Nat.le_trans (Nat.le_of_eq (Prod.ext_iff.1 (hdoor (h.each listener))).2) hlater
    have hnone := ho.get?_of_le hle
    exact (agree_turn_of_none hnone reordered (.inr hlater')).trans
      (agree_turn_of_none hnone notifications (.inr hlater)).symm
  · obtain ⟨earlier, accept, later, rfl, hbefore, hafter⟩ :=
      exists_handing_out hle (Nat.lt_of_not_le hlater)
    have hlistener : accept.token = listener := by
      refine Decidable.byContradiction fun hn => ?_
      rw [(confined_dispatch _ hn).nextToken] at hafter
      exact Nat.not_lt_of_le hbefore hafter
    obtain ⟨earlier', later', rfl, hsame⟩ := h.split hlistener
    have hnone := ho.get?_of_le hle
    have hdoor' := hdoor hsame
    have hbefore' : (server.turn earlier').table.nextToken ≤ t :=
      Nat.le_trans (Nat.le_of_eq (Prod.ext_iff.1 hdoor').2) hbefore
    -- Nothing was under the token on either side when it was handed out.
    have hstart : Agree t (server.turn earlier') (server.turn earlier) :=
      (agree_turn_of_none hnone earlier' (.inr hbefore')).trans
        (agree_turn_of_none hnone earlier (.inr hbefore)).symm
    have hopen := hstart.dispatch_of_door hlistener hdoor'
    have hafter' : t < ((server.turn earlier').dispatch accept).table.nextToken :=
      Nat.lt_of_lt_of_le hafter
        (Nat.le_of_eq (Prod.ext_iff.1 (door_dispatch hlistener hdoor')).2.symm)
    rw [turn_append, turn_append, turn_cons, turn_cons]
    refine agree_turn_of_live hopen hafter' hafter fun hlive => ?_
    have hopens : (server.turn earlier).Opens accept t :=
      ⟨(ordered_turn ho earlier).get?_of_le hbefore, Option.isSome_iff_ne_none.2 hlive⟩
    have hne : accept.token ≠ t :=
      hlistener ▸ Nat.ne_of_lt (Nat.lt_of_lt_of_le ho.next hle)
    have hall := h.each t
    rw [own_append, own_append, own_cons_of_ne hne, own_cons_of_ne hne,
      h.accepts rfl rfl hsame t hopens] at hall
    exact List.append_cancel_left hall

/-! ## Batches -/

/-- The server after batches of notifications. -/
def turns (server : Server) (batches : List (List Notification)) : Server :=
  batches.foldl turn server

/-- How notifications are cut into batches does not matter. -/
theorem turns_eq_turn (server : Server) (batches : List (List Notification)) :
    server.turns batches = server.turn batches.flatten :=
  List.foldl_flatten.symm

/-- **Clients do not affect each other.**  Reordered and cut into other batches, notifications leave
the same table and the same under every token, and each live client is what its own notifications
alone make of it. -/
theorem turns_independent_of_order (h : Reachable server)
    {batches others : List (List Notification)}
    (hr : Reordering server batches.flatten others.flatten) :
    (server.turns others).table = (server.turns batches).table
      ∧ (∀ token, Agree token (server.turns others) (server.turns batches))
      ∧ ∀ token client, (server.turns others).table.get? token = some client →
        server.Lone batches.flatten token client := by
  have ho := h.ordered
  rw [turns_eq_turn, turns_eq_turn]
  have hagree := agree_turn_of_reordering ho hr
  have hdoor : (server.turn others.flatten).door = (server.turn batches.flatten).door := by
    rw [door_turn, hr.each, ← door_turn]
  refine ⟨?_, hagree, fun token client hl => ?_⟩
  · exact (ordered_turn ho _).ext_get? (ordered_turn ho _) (Prod.ext_iff.1 hdoor).2
      fun token => (hagree token).client
  · rw [(hagree token).client] at hl
    exact live_turn ho batches.flatten hl

/-- A server at whose door two clients wait; the first will be refused, over a write that blocks. -/
def twoWaiting : Server :=
  { ofService ⟨⟨[]⟩, .empty, 4, 32⟩ with
    backlog := [
      .arrived ⟨[.data ⟨[0x58, 0x0A], by decide, by decide⟩], [.accept 1, .wouldBlock], true, true⟩,
      .interrupted, .arrived ⟨[], [], true, true⟩, .wouldBlock] }

/-- The second client's hang-up may come before the first one's request, in one batch or in two:
either way the first alone is live, and one byte of its refusal is stored. -/
theorem turns_independent_of_order_two_clients :
    Reachable twoWaiting
      ∧ Reordering twoWaiting
        [[⟨0, true, false, false⟩], [⟨1, true, true, false⟩, ⟨2, false, false, true⟩]].flatten
        [[⟨0, true, false, false⟩, ⟨2, false, false, true⟩], [⟨1, true, true, false⟩]].flatten
      ∧ (twoWaiting.turns
          [[⟨0, true, false, false⟩, ⟨2, false, false, true⟩], [⟨1, true, true, false⟩]]).table
        = (twoWaiting.turns
          [[⟨0, true, false, false⟩],
            [⟨1, true, true, false⟩, ⟨2, false, false, true⟩]]).table
      ∧ (twoWaiting.turns [[⟨0, true, false, false⟩, ⟨2, false, false, true⟩],
          [⟨1, true, true, false⟩]]).table.live.map (fun (token, client) =>
            (token, client.connection.isSending, client.connection.socket.outlet.stored))
        = [(1, true, "E".toByteArray)] := by
  have hreachable : Reachable twoWaiting := .bound _ _
  have hreordering : Reordering twoWaiting
      [[⟨0, true, false, false⟩], [⟨1, true, true, false⟩, ⟨2, false, false, true⟩]].flatten
      [[⟨0, true, false, false⟩, ⟨2, false, false, true⟩], [⟨1, true, true, false⟩]].flatten := by
    refine ⟨fun token => ?_, fun {earlier later earlier' _ accept} hs hs' hl token hopens => ?_⟩
    · by_cases h₁ : token = 1
      · subst h₁
        rfl
      · by_cases h₂ : token = 2
        · subst h₂
          rfl
        · simp [own, List.filter_cons, Ne.symm h₁, Ne.symm h₂]
    · -- Only the first notification is the listener's, so both parts before it are empty.
      have ha := hopens.token_eq
      cases earlier with
      | nil =>
        cases earlier' with
        | nil => rfl
        | cons notification rest =>
          have hfirst : notification.token = listener :=
            (congrArg Notification.token (List.cons.inj hs').1).symm
          rw [own_cons_of_eq hfirst] at hl
          cases hl
      | cons notification rest =>
        have htail : [⟨1, true, true, false⟩, ⟨2, false, false, true⟩]
            = rest ++ accept :: later := (List.cons.inj hs).2
        have hm : accept ∈ [⟨1, true, true, false⟩, ⟨2, false, false, true⟩] := by
          rw [htail]
          exact List.mem_append_right rest List.mem_cons_self
        rw [List.mem_cons, List.mem_singleton] at hm
        rcases hm with rfl | rfl <;> cases ha
  exact ⟨hreachable, hreordering, (turns_independent_of_order hreachable hreordering).1,
    by decide +kernel⟩

end TrackServer.Server
