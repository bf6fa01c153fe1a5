import Mathlib.Algebra.GroupWithZero.Action.Defs
import Mathlib.Algebra.Order.BigOperators.Group.List
import Mathlib.Algebra.Order.Ring.Nat
import TrackServer.Network
import TrackServer.Proofs.WellFormed

/-!
# Proofs/Networking — a server among its clients

Whatever clients do on a network (`Reached`), it is driven as its server may be driven: arrivals and
results are supplied, then notifications are dispatched.  So all that is known of a server that can
come about is known of the one on a network (`Reached.inStep`).

A notification that is given is used up.  It may make its token due once more, when the token is
registered for output, and no dispatch takes that back (`Narrows`).  So what is still to come to a
network, counted over its peers (`work`), shrinks with every notification: of a client
(`work_deliver_lt`) and of the listener (`work_deliverListener_lt`).

* `handed_append_inbound_after`: no byte that arrived is lost on its way to a connection.
* `Reached.wellFormed`: the server of a network is well formed.
* `pump_quiet`: the turns that `pump` allows are enough, and what is left reports nothing.
-/

namespace TrackServer

/-! ## Supplied and notified -/

namespace Server

variable {server other after : Server} {token : Token}

theorem Reachable.queue (h : Reachable server) (more : List AcceptResult) :
    Reachable (server.queue more) :=
  h.queued more

theorem Reachable.supply (h : Reachable server) (token : Token) (reads : List ReadResult)
    (writes : List WriteStep) : Reachable (server.supply token reads writes) := by
  unfold Server.supply
  split
  · exact h
  · next live => exact h.supplied live reads writes

theorem Reachable.dispatch (h : Reachable server) (notification : Notification) :
    Reachable (server.dispatch notification) :=
  h.turn [notification]

theorem confined_supply (server : Server) (token : Token) (reads : List ReadResult)
    (writes : List WriteStep) : Confined token server (server.supply token reads writes) := by
  unfold supply
  split
  · exact .refl server
  · exact confined_setConnection server token _

theorem registry_supply (reads : List ReadResult) (writes : List WriteStep) :
    (server.supply token reads writes).registry = server.registry := by
  unfold supply
  split <;> rfl

/-- **No token comes to be registered for input only.** -/
def Narrows (server after : Server) : Prop :=
  ∀ t, after.registry.lookup t = some .input → server.registry.lookup t = some .input

theorem Narrows.trans (h : Narrows server other) (h' : Narrows other after) :
    Narrows server after :=
  fun t ht => h t (h' t ht)

theorem narrows_of_registry_eq (h : after.registry = server.registry) : Narrows server after :=
  fun _ ht => h ▸ ht

theorem narrows_closeConnection (server : Server) (token : Token) :
    Narrows server (server.closeConnection token) := by
  cases hlive : server.table.get? token with
  | none => exact narrows_of_registry_eq (by rw [closeConnection_of_none hlive])
  | some client =>
    intro t ht
    rw [closeConnection_of_some hlive] at ht
    dsimp only at ht
    rw [Table.lookup_filter_ne] at ht
    split at ht
    · cases ht
    · exact ht

theorem narrows_rearm (server : Server) (token : Token) :
    Narrows server (server.rearm token).2 := by
  unfold rearm
  split
  · exact narrows_of_registry_eq rfl
  · split
    · intro t ht
      rw [lookup_register] at ht
      split at ht
      · cases ht
      · exact ht
    · exact narrows_closeConnection server token

theorem narrows_onReadable (server : Server) (token : Token) :
    Narrows server (server.onReadable token).2 := by
  unfold onReadable
  split
  · exact narrows_of_registry_eq rfl
  · next client _ =>
    generalize client.connection.handleInput server.service = handled
    obtain ⟨next, connection⟩ := handled
    have hset : Narrows server (server.setConnection token connection) :=
      narrows_of_registry_eq rfl
    cases next with
    | read => exact hset
    | close => exact hset.trans (narrows_closeConnection _ token)
    | write =>
      dsimp only
      split
      · exact hset.trans (narrows_rearm _ token)
      · exact hset

theorem narrows_onWritable (server : Server) (token : Token) :
    Narrows server (server.onWritable token) := by
  unfold onWritable
  split
  · exact narrows_of_registry_eq rfl
  · next client _ =>
    generalize client.connection.handleOutput = handled
    obtain ⟨next, connection⟩ := handled
    have hset : Narrows server (server.setConnection token connection) :=
      narrows_of_registry_eq rfl
    cases next with
    | read | write => exact hset
    | close => exact hset.trans (narrows_closeConnection _ token)

/-- **A client's notification narrows what is registered.** -/
theorem narrows_onClient (server : Server) (notification : Notification) :
    Narrows server (server.onClient notification) := by
  cases hh : notification.hangup with
  | true =>
    rw [onClient_of_hangup hh]
    exact narrows_closeConnection server notification.token
  | false =>
    have hinput : Narrows server (server.input notification).2 := by
      unfold input
      split
      · exact narrows_onReadable server notification.token
      · exact narrows_of_registry_eq rfl
    rw [onClient_of_not_hangup hh]
    split
    · exact hinput.trans (narrows_onWritable _ notification.token)
    · exact hinput

end Server

/-! ## Bytes on their way -/

namespace Peer

open Inlet (handed)

variable {peer : Peer}

theorem handed_map_data (pieces : List Piece) :
    handed (pieces.map .data) = pieces.flatMap Piece.bytes :=
  List.flatMap_map ..

/-- Reading gives the bytes that arrived. -/
theorem handed_reads (peer : Peer) : handed peer.reads = peer.inbound := by
  rw [reads, Inlet.handed_append, handed_map_data, Piece.ofBytes_bytes]
  split <;> exact List.append_nil _

/-- **No byte that arrived is lost**: what was read and what is still to be read. -/
theorem handed_append_inbound_after {consumed : List ReadResult} {before connection : Connection}
    (h : peer.reads = consumed ++ connection.socket.inlet.script) :
    handed consumed ++ (peer.after true before connection).inbound = peer.inbound := by
  rw [← handed_reads peer, h, Inlet.handed_append]
  rfl

end Peer

namespace Network

variable {network : Network} {peer : Peer} {peers : List Peer} {index : Nat} {token : Token}
  {notification : Notification} {server : Server}

/-! ## In step -/

/-- **A network in step with its server.**  The server can come about and has nobody left to accept,
and every client that has a token was handed it out.  A turn fetches notifications. -/
structure InStep (network : Network) : Prop where
  reachable : Server.Reachable network.server
  accepted : network.server.backlog = []
  handedOut : ∀ peer ∈ network.peers, ∀ token, peer.token = some token →
    listener < token ∧ token < network.server.table.nextToken
  fetches : 1 ≤ network.capacity

theorem token_notified (interest : Option Interest) (reading : Bool) (before : Connection) :
    (peer.notified token interest reading before server).token = peer.token := by
  unfold Peer.notified
  split
  · rfl
  · dsimp only
    split <;> rfl

theorem InStep.ne_listener (h : network.InStep) (hpeer : network.peers[index]? = some peer)
    (htoken : peer.token = some token) : token ≠ listener :=
  (Nat.ne_of_lt (h.handedOut peer (List.mem_of_getElem? hpeer) token htoken).1).symm

/-- A change of peers that changes no token. -/
theorem InStep.withPeers (h : network.InStep)
    (hpeers : ∀ changed ∈ peers, ∃ peer ∈ network.peers, changed.token = peer.token) :
    InStep { network with peers } where
  reachable := h.reachable
  accepted := h.accepted
  handedOut changed hmem token htoken := by
    obtain ⟨peer, hpeer, heq⟩ := hpeers changed hmem
    exact h.handedOut peer hpeer token (heq ▸ htoken)
  fetches := h.fetches

theorem InStep.modify (h : network.InStep) (index : Nat) {change : Peer → Peer}
    (hchange : ∀ peer, (change peer).token = peer.token) :
    (network.modify index change).InStep := by
  refine h.withPeers fun changed hmem => ?_
  obtain ⟨i, hi⟩ := List.mem_iff_getElem?.1 hmem
  rw [List.getElem?_modify] at hi
  obtain ⟨peer, hpeer, rfl⟩ := Option.map_eq_some_iff.1 hi
  refine ⟨peer, List.mem_of_getElem? hpeer, ?_⟩
  split
  · exact hchange peer
  · rfl

/-! ## Accepting -/

theorem accept_replicate (arrival : Arrival) (count : Nat) (server : Server) :
    (server.acceptFrom (List.replicate count (.arrived arrival) ++ [.wouldBlock])).table.nextToken
        = server.table.nextToken + count
      ∧ (server.acceptFrom (List.replicate count (.arrived arrival) ++ [.wouldBlock])).backlog
        = [] := by
  induction count generalizing server with
  | zero => exact ⟨rfl, rfl⟩
  | succ count ih =>
    obtain ⟨hnext, hbacklog⟩ := ih (server.enroll arrival)
    rw [Server.nextToken_enroll] at hnext
    exact ⟨hnext.trans (Nat.add_right_comm _ 1 count), hbacklog⟩

/-- All who wait are accepted, and each takes a token. -/
theorem accept_arrivals (h : network.InStep) :
    network.deliverListener.server.table.nextToken
        = network.server.table.nextToken + network.waiting
      ∧ network.deliverListener.server.backlog = [] := by
  have hqueued : (network.server.queue network.arrivals).backlog = network.arrivals :=
    congrArg (· ++ network.arrivals) h.accepted
  have hserver : network.deliverListener.server
      = (network.server.queue network.arrivals).acceptFrom network.arrivals := by
    rw [deliverListener, Server.dispatch, if_pos rfl, if_pos rfl, Server.acceptAll, hqueued]
  rw [hserver]
  exact accept_replicate _ network.waiting _

theorem assignTokens_of_some (next : Token) (rest : List Peer) (h : peer.token = some token) :
    assignTokens next (peer :: rest) = peer :: assignTokens next rest := by
  rw [assignTokens, h]
  exact if_pos rfl

theorem assignTokens_of_none (next : Token) (rest : List Peer) (h : peer.token = none) :
    assignTokens next (peer :: rest)
      = { peer with token := some next, due := true } :: assignTokens (next + 1) rest := by
  rw [assignTokens, h]
  exact if_neg Bool.false_ne_true

/-- Clients keep the tokens they have, and who has none gets one of the next. -/
theorem token_of_mem_assignTokens {assigned : Peer} {next : Token}
    (hmem : assigned ∈ assignTokens next peers) (htoken : assigned.token = some token) :
    (∃ peer ∈ peers, peer.token = some token)
      ∨ next ≤ token ∧ token < next + (peers.filter (·.token.isNone)).length := by
  induction peers generalizing next with
  | nil => cases hmem
  | cons peer rest ih =>
    cases hpeer : peer.token with
    | some known =>
      rw [assignTokens_of_some next rest hpeer] at hmem
      rw [List.filter_cons_of_neg (by simp [hpeer])]
      obtain rfl | hmem := List.mem_cons.1 hmem
      · exact .inl ⟨assigned, List.mem_cons_self, htoken⟩
      · exact (ih hmem).imp_left fun ⟨p, hp, h⟩ => ⟨p, List.mem_cons_of_mem peer hp, h⟩
    | none =>
      rw [assignTokens_of_none next rest hpeer] at hmem
      rw [List.filter_cons_of_pos (by simp [hpeer]), List.length_cons]
      obtain rfl | hmem := List.mem_cons.1 hmem
      · obtain rfl := Option.some.inj htoken
        exact .inr ⟨Nat.le_refl _, Nat.lt_add_of_pos_right (Nat.succ_pos _)⟩
      · refine (ih hmem).imp (fun ⟨p, hp, h⟩ => ⟨p, List.mem_cons_of_mem peer hp, h⟩)
          fun ⟨hle, hlt⟩ => ⟨Nat.le_of_succ_le hle, ?_⟩
        rwa [Nat.add_right_comm] at hlt

theorem InStep.deliverListener (h : network.InStep) : network.deliverListener.InStep := by
  obtain ⟨hnext, hbacklog⟩ := accept_arrivals h
  have hreachable :=
    (h.reachable.queue network.arrivals).dispatch ⟨listener, true, false, false⟩
  refine ⟨hreachable, hbacklog, ?_, h.fetches⟩
  intro assigned hmem token htoken
  rw [hnext]
  obtain ⟨peer, hpeer, hknown⟩ | ⟨hle, hlt⟩ := token_of_mem_assignTokens hmem htoken
  · obtain ⟨habove, hbelow⟩ := h.handedOut peer hpeer token hknown
    exact ⟨habove, Nat.lt_add_right _ hbelow⟩
  · exact ⟨Nat.lt_of_lt_of_le h.reachable.ordered.next hle, hlt⟩

/-! ## Delivering -/

/-- What is due for a peer is due for its token, which is registered. -/
theorem dueNotification_eq_some (h : network.dueNotification peer = some notification) :
    peer.token = some notification.token ∧ peer.due = true
      ∧ network.server.registry.lookup notification.token ≠ none := by
  unfold dueNotification at h
  split at h
  · cases h
  · next token htoken =>
    split at h
    · next hdue =>
      split at h
      · cases h
      · next interest hinterest =>
        have hstanding : (peer.standing token interest).token = notification.token := by
          dsimp only at h
          split at h
          · rw [← Option.some.inj h]
          · cases h
        obtain rfl : token = notification.token := hstanding
        exact ⟨htoken, hdue, by rw [hinterest]; simp⟩
    · cases h

/-- **What delivering a client's notification does**: to the server what its handling does, after
what its connection is about to use was supplied; to the peers one change that keeps the token. -/
theorem exists_deliver (network : Network) (index : Nat) (peer : Peer)
    (notification : Notification) :
    (network.server.table.get? notification.token = none
        ∧ network.deliver index peer notification
          = { network with peers := network.peers.set index { peer with due := false } })
      ∨ ∃ reads writes reading before, network.deliver index peer notification = { network with
          server := (network.server.supply notification.token reads writes).dispatch notification
          peers := network.peers.set index (peer.notified notification.token
            (network.server.registry.lookup notification.token) reading before
            ((network.server.supply notification.token reads writes).dispatch notification)) } := by
  unfold deliver
  dsimp only
  split
  · next hnone => exact .inl ⟨hnone, rfl⟩
  · exact .inr ⟨_, _, _, _, rfl⟩

theorem InStep.deliver (h : network.InStep) (hpeer : network.peers[index]? = some peer)
    (htoken : peer.token = some notification.token) :
    (network.deliver index peer notification).InStep := by
  have hmem : peer ∈ network.peers := List.mem_of_getElem? hpeer
  have hkeeps {changed other : Peer} (hset : changed ∈ network.peers.set index other)
      (hsame : other.token = peer.token) : ∃ peer ∈ network.peers, changed.token = peer.token := by
    obtain hold | rfl := List.mem_or_eq_of_mem_set hset
    · exact ⟨changed, hold, rfl⟩
    · exact ⟨peer, hmem, hsame⟩
  obtain ⟨-, heq⟩ | ⟨reads, writes, reading, before, heq⟩ :=
    network.exists_deliver index peer notification
  · rw [heq]
    exact h.withPeers fun changed hset => hkeeps hset rfl
  · rw [heq]
    have hsupplied := Server.confined_supply network.server notification.token reads writes
    have hconfined := hsupplied.trans (Server.confined_dispatch _ (h.ne_listener hpeer htoken))
    have hserved : InStep { network with
        server := (network.server.supply notification.token reads writes).dispatch notification } :=
      { reachable := (h.reachable.supply _ reads writes).dispatch notification
        accepted := hconfined.backlog.trans h.accepted
        handedOut := fun p hp t ht => hconfined.nextToken ▸ h.handedOut p hp t ht
        fetches := h.fetches }
    exact hserved.withPeers fun changed hset => hkeeps hset (token_notified _ _ _)

/-! ## Work -/

/-- **How many notifications may still come for a peer** while no client does anything: one if it is
due, one more once it is registered for output, and for a client that waits its arrival and both. -/
def toCome (server : Server) (peer : Peer) : Nat :=
  match peer.token with
  | none => 3
  | some token =>
    (if peer.due then 1 else 0) + if server.registry.lookup token = some .input then 1 else 0

/-- How many notifications may still come in all. -/
def work (network : Network) : Nat :=
  (network.peers.map (toCome network.server)).sum

theorem toCome_le_three (server : Server) (peer : Peer) : toCome server peer ≤ 3 := by
  unfold toCome
  split
  · exact Nat.le_refl 3
  · split <;> split <;> decide

theorem work_le (network : Network) : network.work ≤ 3 * network.peers.length := by
  refine (List.sum_le_card_nsmul _ 3 fun count hmem => ?_).trans_eq ?_
  · obtain ⟨peer, -, rfl⟩ := List.mem_map.1 hmem
    exact toCome_le_three _ peer
  · rw [List.length_map, smul_eq_mul, Nat.mul_comm]

theorem toCome_of_token (h : peer.token = some token) : toCome server peer
    = (if peer.due then 1 else 0)
      + if server.registry.lookup token = some .input then 1 else 0 := by
  rw [toCome, h]

/-- What narrows the registry makes no more work. -/
theorem toCome_le_of_narrows {after : Server} (h : server.Narrows after) (peer : Peer) :
    toCome after peer ≤ toCome server peer := by
  unfold toCome
  split
  · exact Nat.le_refl 3
  · next token _ =>
    refine Nat.add_le_add_left ?_ _
    by_cases hafter : after.registry.lookup token = some .input
    · rw [if_pos hafter, if_pos (h token hafter)]
    · rw [if_neg hafter]
      exact Nat.zero_le _

/-- A list in which one element is exchanged for one that counts less. -/
theorem sum_set_lt {α : Type} {f g : α → Nat} {l : List α} {index : Nat} {a b : α}
    (ha : l[index]? = some a) (hle : ∀ x ∈ l, g x ≤ f x) (hlt : g b < f a) :
    ((l.set index b).map g).sum < (l.map f).sum := by
  induction l generalizing index with
  | nil => cases ha
  | cons x rest ih =>
    obtain ⟨hx, hrest⟩ := List.forall_mem_cons.1 hle
    cases index with
    | zero =>
      obtain rfl := Option.some.inj ha
      exact Nat.add_lt_add_of_lt_of_le hlt (List.sum_le_sum hrest)
    | succ index => exact Nat.add_lt_add_of_le_of_lt hx (ih ha hrest)

/-- A live token of a server that can come about is registered. -/
theorem lookup_ne_none_of_contains (h : Server.Reachable server)
    (hlive : server.table.contains token = true) : server.registry.lookup token ≠ none := by
  obtain ⟨client, live⟩ := Option.isSome_iff_exists.1 hlive
  obtain ⟨-, hunfinished, hregistered⟩ := (h.keepsAll.kept token).live live
  rw [hregistered]
  cases hneeds : client.connection.needs with
  | read | write => simp [Next.interest?]
  | close => exact absurd hneeds hunfinished

/-- A token that is due again is live, and registered anew. -/
theorem of_due_notified {interest : Option Interest} {reading : Bool} {before : Connection}
    (h : (peer.notified token interest reading before server).due = true) :
    server.table.contains token = true ∧ server.registry.lookup token ≠ interest := by
  unfold Peer.notified at h
  split at h
  · cases h
  · dsimp only at h
    split at h
    · next hlive => exact ⟨hlive, bne_iff_ne.1 h⟩
    · cases h

/-- A registration that narrowed to another was for input only. -/
theorem eq_input_of_renewed {before after : Option Interest} (hbefore : before ≠ none)
    (hafter : after ≠ none) (hchanged : after ≠ before)
    (hnarrows : after = some .input → before = some .input) : before = some .input := by
  cases before with
  | none => exact absurd rfl hbefore
  | some interest =>
    cases interest with
    | input => rfl
    | inputAndOutput =>
      cases after with
      | none => exact absurd rfl hafter
      | some interest =>
        cases interest with
        | input => exact hnarrows rfl
        | inputAndOutput => exact absurd rfl hchanged

/-- **A notification that was given is used up.** -/
theorem toCome_notified_lt {after : Server} (hreachable : Server.Reachable after)
    (hnarrows : server.Narrows after) (htoken : peer.token = some token) (hdue : peer.due = true)
    (hregistered : server.registry.lookup token ≠ none) (reading : Bool) (before : Connection) :
    toCome after (peer.notified token (server.registry.lookup token) reading before after)
      < toCome server peer := by
  rw [toCome_of_token ((token_notified _ reading before).trans htoken), toCome_of_token htoken,
    if_pos hdue]
  by_cases hagain : (peer.notified token (server.registry.lookup token) reading before after).due
  · -- It was registered for input before, and is registered for output now.
    obtain ⟨hlive, hchanged⟩ := of_due_notified hagain
    have hafter : after.registry.lookup token ≠ some .input := fun hinput =>
      hchanged (hinput.trans (hnarrows token hinput).symm)
    have hbefore := eq_input_of_renewed hregistered
      (lookup_ne_none_of_contains hreachable hlive) hchanged (hnarrows token)
    rw [if_pos hagain, if_neg hafter, if_pos hbefore]
    exact Nat.lt_succ_self 1
  · rw [if_neg hagain, Nat.zero_add, Nat.add_comm]
    by_cases hafter : after.registry.lookup token = some .input
    · rw [if_pos hafter, if_pos (hnarrows token hafter)]
      exact Nat.lt_succ_self 1
    · rw [if_neg hafter]
      exact Nat.succ_pos _

/-- **Every notification of a client leaves less to come.** -/
theorem work_deliver_lt (h : network.InStep) (hpeer : network.peers[index]? = some peer)
    (hdue : network.dueNotification peer = some notification) :
    (network.deliver index peer notification).work < network.work := by
  obtain ⟨htoken, hset, hregistered⟩ := dueNotification_eq_some hdue
  obtain ⟨vacant, -⟩ | ⟨reads, writes, reading, before, heq⟩ :=
    network.exists_deliver index peer notification
  · exact absurd ((h.reachable.keepsAll.kept _).unregistered vacant) hregistered
  · have hreachable := (h.reachable.supply notification.token reads writes).dispatch notification
    have hnarrows : network.server.Narrows
        ((network.server.supply notification.token reads writes).dispatch notification) := by
      rw [Server.dispatch_of_ne (h.ne_listener hpeer htoken)]
      exact (Server.narrows_of_registry_eq (Server.registry_supply reads writes)).trans
        (Server.narrows_onClient _ notification)
    rw [heq]
    exact sum_set_lt hpeer (fun other _ => toCome_le_of_narrows hnarrows other)
      (toCome_notified_lt hreachable hnarrows htoken hset hregistered reading before)

/-- Who is accepted has less to come; for the others nothing changes. -/
theorem sum_assignTokens_le {after : Server} {next : Token}
    (hknown : ∀ peer ∈ peers, ∀ token, peer.token = some token →
      after.registry.lookup token = server.registry.lookup token) :
    ((assignTokens next peers).map (toCome after)).sum
        + (peers.filter (·.token.isNone)).length
      ≤ (peers.map (toCome server)).sum := by
  induction peers generalizing next with
  | nil => exact Nat.le_refl 0
  | cons peer rest ih =>
    obtain ⟨hfirst, hrest⟩ := List.forall_mem_cons.1 hknown
    cases htoken : peer.token with
    | some token =>
      have hsame : toCome after peer = toCome server peer := by
        rw [toCome_of_token htoken, toCome_of_token htoken, hfirst token htoken]
      rw [assignTokens_of_some next rest htoken, List.filter_cons_of_neg (by simp [htoken]),
        List.map_cons, List.map_cons, List.sum_cons, List.sum_cons, hsame, Nat.add_assoc]
      exact Nat.add_le_add_left (ih hrest) _
    | none =>
      have hwaits : toCome server peer = 3 := by rw [toCome, htoken]
      have htaken : toCome after { peer with token := some next, due := true } ≤ 2 := by
        rw [toCome_of_token rfl, if_pos rfl]
        split <;> decide
      rw [assignTokens_of_none next rest htoken, List.filter_cons_of_pos (by simp [htoken]),
        List.length_cons, List.map_cons, List.map_cons, List.sum_cons, List.sum_cons, hwaits]
      have := @ih (next + 1) hrest
      omega

/-- **Accepting leaves less to come.** -/
theorem work_deliverListener_lt (h : network.InStep) (hwaiting : network.waiting ≠ 0) :
    network.deliverListener.work < network.work := by
  refine Nat.lt_of_lt_of_le (Nat.lt_add_of_pos_right (Nat.pos_of_ne_zero hwaiting))
    (sum_assignTokens_le fun peer hpeer token htoken => ?_)
  have hknown : token < (network.server.queue network.arrivals).table.nextToken :=
    (h.handedOut peer hpeer token htoken).2
  exact (@Server.agree_dispatch_of_listener (network.server.queue network.arrivals) token
    ⟨listener, true, false, false⟩ rfl (.inl hknown)).interest

/-! ## Turns -/

/-- **A network that got on by some notifications**: it stays in step, and so much less is to
come. -/
structure Advances (count : Nat) (network after : Network) : Prop where
  inStep : after.InStep
  work : count + after.work ≤ network.work

/-- One notification more, before the others. -/
theorem Advances.cons {one after : Network} {count : Nat} (hfirst : one.work < network.work)
    (h : Advances count one after) : Advances (count + 1) network after where
  inStep := h.inStep
  work := by
    rw [Nat.add_right_comm]
    exact Nat.lt_of_le_of_lt h.work hfirst

theorem advances_turnPeers (h : network.InStep) (capacity : Nat) (indices : List Nat) :
    Advances (turnPeers capacity indices network).1 network
      (turnPeers capacity indices network).2 := by
  fun_induction turnPeers capacity indices network with
  | case1 | case2 => exact ⟨h, (Nat.zero_add _).le⟩
  | case3 _ _ _ _ _ ih => exact ih h
  | case4 _ _ _ _ _ _ _ ih => exact ih h
  | case5 _ _ _ _ peer hpeer notification hdue count after heq ih =>
    rw [heq] at ih
    have hfirst := h.deliver hpeer (dueNotification_eq_some hdue).1
    exact (ih hfirst).cons (work_deliver_lt h hpeer hdue)

theorem advances_turn (h : network.InStep) :
    Advances network.turn.1 network network.turn.2 := by
  unfold turn
  split
  · exact advances_turnPeers h _ _
  · next hwaiting =>
    exact (advances_turnPeers h.deliverListener _ _).cons (work_deliverListener_lt h hwaiting)

/-- A network that reports nothing: nobody waits, and nothing is due. -/
structure Quiet (network : Network) : Prop where
  accepted : network.waiting = 0
  silent : ∀ peer ∈ network.peers, network.dueNotification peer = none

/-- A turn over some peers in which nothing is reported. -/
theorem turnPeers_eq_zero {capacity : Nat} {indices : List Nat} (hfetches : 1 ≤ capacity)
    (h : (turnPeers capacity indices network).1 = 0) :
    (turnPeers capacity indices network).2 = network
      ∧ ∀ i ∈ indices, ∀ peer, network.peers[i]? = some peer →
        network.dueNotification peer = none := by
  fun_induction turnPeers capacity indices network with
  | case1 => exact ⟨rfl, fun _ hi => nomatch hi⟩
  | case2 => exact absurd hfetches (Nat.not_succ_le_zero 0)
  | case3 network index rest fewer hpeer ih =>
    obtain ⟨hsame, hrest⟩ := ih hfetches h
    refine ⟨hsame, List.forall_mem_cons.2 ⟨fun peer hsome => ?_, hrest⟩⟩
    cases hpeer.symm.trans hsome
  | case4 network index rest fewer known hpeer hsilent ih =>
    obtain ⟨hsame, hrest⟩ := ih hfetches h
    refine ⟨hsame, List.forall_mem_cons.2 ⟨fun peer hsome => ?_, hrest⟩⟩
    obtain rfl := Option.some.inj (hpeer.symm.trans hsome)
    exact hsilent
  | case5 => cases h

/-- **A turn in which nothing is reported leaves the network as it was**, and nothing can be
reported of it. -/
theorem quiet_of_turn_eq_zero (h : network.InStep) (hturn : network.turn.1 = 0) :
    network.turn.2 = network ∧ network.Quiet := by
  unfold turn at hturn ⊢
  split at hturn
  · next hwaiting =>
    rw [if_pos hwaiting]
    obtain ⟨hsame, hsilent⟩ := turnPeers_eq_zero h.fetches hturn
    refine ⟨hsame, hwaiting, fun peer hpeer => ?_⟩
    obtain ⟨i, hi⟩ := List.mem_iff_getElem?.1 hpeer
    exact hsilent i (List.mem_range.2 (List.getElem?_eq_some_iff.1 hi).1) peer hi
  · cases hturn

/-- **More rounds than notifications to come are enough.** -/
theorem quiet_turns {rounds : Nat} (h : network.InStep) (hrounds : network.work < rounds) :
    (network.turns rounds).InStep ∧ (network.turns rounds).Quiet := by
  induction rounds generalizing network with
  | zero => exact absurd hrounds (Nat.not_lt_zero _)
  | succ rounds ih =>
    have hadvances := advances_turn h
    have hquiet := quiet_of_turn_eq_zero h
    rw [turns]
    generalize network.turn = turned at hadvances hquiet
    obtain ⟨count, after⟩ := turned
    cases count with
    | zero =>
      obtain ⟨rfl, hq⟩ := hquiet rfl
      exact ⟨h, hq⟩
    | succ count =>
      refine ih hadvances.inStep ?_
      have := hadvances.work
      dsimp only at this
      omega

/-! ## Networks that can come about -/

/-- **A network that can come about**: a server that has just begun to listen and fetches
notifications, then whatever clients do and whatever turns the server takes. -/
inductive Reached : Network → Prop
  | bound (service : Service) (address : SocketAddress) {capacity : Nat} (hasRoute : Bool)
    (fetches : 1 ≤ capacity) :
    Reached (.ofServer (.ofService service) address capacity hasRoute)
  | connect {network after : Network} {index : Nat} (h : Reached network)
    (connected : network.connect = .ok (index, after)) : Reached after
  | send {network : Network} (index : Nat) (bytes : List UInt8) (h : Reached network) :
    Reached (network.send index bytes).2
  | shutdown {network : Network} (index : Nat) (h : Reached network) :
    Reached (network.shutdown index)
  | drop {network : Network} (index : Nat) (h : Reached network) : Reached (network.drop index)
  | take {network : Network} (index limit : Nat) (h : Reached network) :
    Reached (network.take index limit).2
  | turn {network : Network} (h : Reached network) : Reached network.turn.2

theorem InStep.connect (h : network.InStep) {after : Network}
    (hconnected : network.connect = .ok (index, after)) : after.InStep := by
  unfold Network.connect at hconnected
  split at hconnected
  · obtain ⟨-, rfl⟩ := Prod.mk.inj (Except.ok.inj hconnected)
    refine { h with handedOut := fun peer hmem token htoken => ?_ }
    obtain hmem | hmem := List.mem_append.1 hmem
    · exact h.handedOut peer hmem token htoken
    · obtain rfl := List.mem_singleton.1 hmem
      cases htoken
  · cases hconnected

theorem InStep.send (h : network.InStep) (index : Nat) (bytes : List UInt8) :
    (network.send index bytes).2.InStep := by
  unfold Network.send
  split
  · exact h
  · split
    · exact h
    · split
      · exact h
      · split <;> exact h.modify index fun _ => rfl

theorem InStep.take (h : network.InStep) (index limit : Nat) :
    (network.take index limit).2.InStep := by
  unfold Network.take
  split
  · exact h
  · exact h.modify index fun _ => rfl

/-- **Whatever clients do, the network is in step with its server.** -/
theorem Reached.inStep (h : Reached network) : network.InStep := by
  induction h with
  | bound service address hasRoute fetches =>
    exact ⟨.bound service [], rfl, (fun _ hmem => nomatch hmem), fetches⟩
  | connect _ connected ih => exact ih.connect connected
  | send index bytes _ ih => exact ih.send index bytes
  | shutdown index _ ih | drop index _ ih => exact ih.modify index fun _ => rfl
  | take index limit _ ih => exact ih.take index limit
  | turn _ ih => exact (advances_turn ih).inStep

/-- **The server of a network is well formed**, whatever its clients do. -/
theorem Reached.wellFormed (h : Reached network) : network.server.WellFormed :=
  Server.wellFormed_of_reachable h.inStep.reachable

theorem Reached.turns (h : Reached network) (rounds : Nat) : Reached (network.turns rounds) := by
  induction rounds generalizing network with
  | zero => exact h
  | succ rounds ih =>
    have hturn := h.turn
    rw [Network.turns]
    generalize network.turn = turned at hturn
    obtain ⟨count, after⟩ := turned
    cases count with
    | zero => exact hturn
    | succ count => exact ih hturn

theorem Reached.pump (h : Reached network) : Reached network.pump :=
  h.turns _

theorem Reached.receive (h : Reached network) (index limit : Nat) (data : ByteArray) :
    Reached (network.receive index limit data).2 := by
  fun_induction Network.receive index limit data network with
  | case1 => exact h.pump.take index _
  | case2 data network taken hmore ih => exact ih (h.pump.take index _)

theorem Reached.read (h : Reached network) (index : Nat) (limit : Option Nat) :
    Reached (network.read index limit).2.2 :=
  h.receive index _ _

/-- **The turns of `pump` are enough**: afterwards nobody waits and nothing can be reported. -/
theorem pump_quiet (h : Reached network) : Reached network.pump ∧ network.pump.Quiet :=
  ⟨h.pump, (quiet_turns h.inStep (Nat.lt_succ_of_le network.work_le)).2⟩

/-- A client that sends a request is answered, and its connection closed. -/
example :
    ((ofServer (.ofService ⟨⟨[]⟩, .empty, 4, 32⟩) ⟨.v4 [127, 0, 0, 1], 8080⟩ 8 true).connect.map
      fun (index, network) =>
        let pumped := (network.send index [0x58, 0x0A]).2.pump
        ((pumped.take index 64).1, pumped.isClosed index)).toOption
      = some ("ERR unknown command X\n".toByteArray, true) := by
  decide +kernel

end Network

end TrackServer
