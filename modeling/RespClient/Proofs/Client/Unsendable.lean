import RespClient.Network.Recorder
import RespClient.Proofs.Client.Alike
import RespClient.Proofs.Client.Attempts
import RespClient.Proofs.Wire.Framing

/-!
# A round that cannot be sent

A round with an argument that has no place in a request stops at its sends: nothing is
flushed, and the connection is given up with all that waits on it to be sent. So the peer
hears nothing of the round, neither at once nor later.
-/

namespace RespClient

/-- The first of some requests that cannot be sent, those before it, and why it cannot. -/
structure Barred (requests good : List Request) (bad : Request) (e : Failure) : Prop where
  split : ∃ later, requests = good ++ bad :: later
  good : ∀ r ∈ good, ∃ bytes, r.encode = .ok bytes
  refused : bad.encode = .error e
  protocol : ∃ text, e = .protocol text

theorem exists_barred {requests : List Request}
    (h : ∃ r ∈ requests, ∃ arg ∈ r.args, ¬ arg.isArgument) :
    ∃ good bad e, Barred requests good bad e := by
  induction requests with
  | nil => simp at h
  | cons request requests ih =>
      rcases Request.forall_isArgument_or request.args with
        hall | ⟨sent, arg, unsent, hargs, hsent, harg⟩
      · -- the first request can be sent, so a later one cannot
        obtain ⟨r, hr, arg, harg, hbad⟩ := h
        rcases List.mem_cons.mp hr with rfl | hr
        · exact absurd (hall arg harg) hbad
        · obtain ⟨good, bad, e, ⟨later, rfl⟩, hgood, hrefused, hprotocol⟩ :=
            ih ⟨r, hr, arg, harg, hbad⟩
          exact ⟨request :: good, bad, e, ⟨later, rfl⟩,
            List.forall_mem_cons.mpr ⟨⟨_, Request.encode_eq_spelled hall⟩, hgood⟩,
            hrefused, hprotocol⟩
      · refine ⟨[], request, Request.unsendable arg, ⟨requests, rfl⟩, by simp, ?_, _, rfl⟩
        rw [Request.encode, Request.append_of_not_isArgument hargs hsent harg]

/-! ## Sends that fail -/

theorem Act.left_bind_of_ok {σ α β : Type} {act : Act σ α} {next : α → Act σ β} {a : α} {s t : σ}
    (h : act s = .ok a t) : (act >>= next).left s = (next a).left t := by
  rw [left, bind_apply, h, left]

namespace Network

variable {σ : Type} [Network σ] {requests good : List Request} {bad : Request} {e : Failure}

theorem sendAll_append (xs ys : List Request) :
    sendAll (σ := σ) (xs ++ ys) = sendAll xs >>= fun _ => sendAll ys := by
  funext s
  induction xs generalizing s with
  | nil => rfl
  | cons x xs ih =>
      rw [List.cons_append, sendAll, sendAll, Act.bind_apply, Act.bind_apply, Act.bind_apply]
      cases Network.send x s with
      | error e t => rfl
      | ok _ t => exact (ih t).trans (Act.bind_apply _ _ t)

/-- Where those before it are sent, the request that cannot be sent is refused for just that
reason. -/
theorem sendAll_of_barred [LawfulNetwork σ] (h : Barred requests good bad e) {s t : σ}
    (hgood : sendAll good s = .ok () t) : ∃ u, sendAll requests s = .error e u := by
  obtain ⟨later, rfl⟩ := h.split
  obtain ⟨u, hu⟩ := LawfulNetwork.send_unsendable h.refused t
  refine ⟨u, ?_⟩
  rw [sendAll_append, Act.bind_apply, hgood]
  dsimp only
  rw [sendAll, Act.bind_apply, hu]

/-- The sends of a round that cannot be sent never go well. -/
theorem exists_sendAll_error [LawfulNetwork σ] (h : Barred requests good bad e) (s : σ) :
    ∃ e' t, sendAll requests s = .error e' t := by
  cases hgood : sendAll good s with
  | ok _ t =>
      obtain ⟨u, hu⟩ := sendAll_of_barred h hgood
      exact ⟨e, u, hu⟩
  | error e' t =>
      obtain ⟨later, rfl⟩ := h.split
      refine ⟨e', t, ?_⟩
      rw [sendAll_append, Act.bind_apply, hgood]

theorem round_of_sendAll_error {e : Failure} {s t : σ} (h : sendAll requests s = .error e t) :
    round requests s = .error e t := by
  rw [round, Act.bind_apply, h]

end Network

open Network

namespace Journal

variable {σ : Type} [Network σ] {journal after : Journal σ}

/-- Sends go well up to the one that fails. -/
theorem events_of_sendAll_error {requests : List Request} {e : Failure}
    (h : sendAll requests journal = .error e after) :
    ∃ earlier request later, requests = earlier ++ request :: later ∧
      after.events = journal.events ++
        (earlier.map (.send · (.ok ())) ++ [.send request (.error e)]) := by
  induction requests generalizing journal with
  | nil => cases h
  | cons request requests ih =>
      rw [sendAll, Act.bind_apply] at h
      cases hsend : Network.send request journal with
      | error e' t =>
          rw [hsend] at h
          cases h
          exact ⟨[], request, requests, rfl, events_of_record_error hsend⟩
      | ok _ t =>
          rw [hsend] at h
          obtain ⟨earlier, failed, later, rfl, hevents⟩ := ih h
          refine ⟨request :: earlier, failed, later, rfl, ?_⟩
          rw [hevents, events_of_record hsend, List.append_assoc]
          rfl

end Journal

namespace Client

open Journal

section

variable {σ : Type} [Network σ] {client : Client} {requests good : List Request} {bad : Request}
  {e : Failure}

/-- An attempt at a round that cannot be sent fails on connecting or at the sends. -/
theorem attempt_of_barred [LawfulNetwork σ] (client : Client) (h : Barred requests good bad e)
    (session : Session σ) :
    (∃ e' after, client.connect session = .error e' after ∧
      client.attempt requests session = .error e' after) ∨
    ∃ ready e' network, client.connect session = .ok () ready ∧
      sendAll requests ready.network = .error e' network ∧
      client.attempt requests session = .error e' { ready with network } := by
  rw [attempt, Act.bind_apply]
  cases hconnect : client.connect session with
  | error e' after => exact .inl ⟨e', after, rfl, rfl⟩
  | ok _ ready =>
      obtain ⟨e', network, hsend⟩ := exists_sendAll_error h ready.network
      refine .inr ⟨ready, e', network, rfl, hsend, ?_⟩
      dsimp only
      rw [onConnection_of_connected (connected_of_connect hconnect), Session.onNetwork,
        round_of_sendAll_error hsend]

/-- An attempt comes to the request that cannot be sent: connecting goes well, and so do the
sends before it. -/
def Reaches (client : Client) (good : List Request) (a : Attempt σ) : Prop :=
  ∃ ready t, client.connect a.before = .ok () ready ∧ sendAll good ready.network = .ok () t

/-- After connecting, an attempt does nothing but send requests of its round, in order up to
one that fails. -/
def OnlySends (client : Client) (requests : List Request) (a : Attempt (Journal σ)) : Prop :=
  ∃ sends, a.after.network.events = (client.connect.left a.before).network.events ++ sends ∧
    (sends = [] ∨ ∃ earlier request later e, requests = earlier ++ request :: later ∧
      sends = earlier.map (.send · (.ok ())) ++ [.send request (.error e)])

/-- A run whose attempts do no more for the round than to send, and that ends without a
connection. An attempt that comes to what cannot be sent is the last one, and the run fails
as it does. -/
structure Withheld (client : Client) (requests good : List Request) (e : Failure)
    (session : Session (Journal σ)) (struck : List (Attempt (Journal σ)))
    (last : Attempt (Journal σ)) : Prop where
  row : InRow client requests session struck last
  fails : ∃ e', last.outcome = .error e' ∧ client.run requests session = .error e' last.final
  closed : last.final.connected = false
  onlySends : ∀ a ∈ struck ++ [last], OnlySends client requests a
  unreached : ∀ a ∈ struck, ¬ Reaches client good a
  refused : Reaches client good last → client.run requests session = .error e last.final

theorem failed_of_barred [LawfulNetwork σ] {a : Attempt σ} (h : Barred requests good bad e)
    (hmade : a.Made client requests) : ∃ e', a.outcome = .error e' := by
  rw [Attempt.Made] at hmade
  cases ha : a.outcome with
  | error e' => exact ⟨e', rfl⟩
  | ok replies =>
      rw [ha, Act.ofExcept_ok] at hmade
      rcases attempt_of_barred client h a.before with
        ⟨e', after, -, hattempt⟩ | ⟨ready, e', network, -, -, hattempt⟩
      · rw [hattempt] at hmade
        cases hmade
      · rw [hattempt] at hmade
        cases hmade

theorem outcome_of_reaches [LawfulNetwork σ] {a : Attempt σ} (h : Barred requests good bad e)
    (hmade : a.Made client requests) (hreaches : Reaches client good a) :
    a.outcome = .error e := by
  obtain ⟨ready, t, hconnect, hgood⟩ := hreaches
  obtain ⟨u, hsend⟩ := sendAll_of_barred h hgood
  rw [Attempt.Made, attempt, Act.bind_apply, hconnect] at hmade
  dsimp only at hmade
  rw [onConnection_of_connected (connected_of_connect hconnect), Session.onNetwork,
    round_of_sendAll_error hsend] at hmade
  cases ha : a.outcome with
  | error e' =>
      rw [ha, Act.ofExcept_error, EStateM.Result.error.injEq] at hmade
      rw [hmade.1]
  | ok replies =>
      rw [ha, Act.ofExcept_ok] at hmade
      cases hmade

theorem onlySends_of_barred [LawfulNetwork σ] {a : Attempt (Journal σ)}
    (h : Barred requests good bad e) (hmade : a.Made client requests) :
    OnlySends client requests a := by
  have hafter := left_of_made hmade
  rcases attempt_of_barred client h a.before with
    ⟨e', after, hconnect, hattempt⟩ | ⟨ready, e', network, hconnect, hsend, hattempt⟩
  · rw [Act.left_of_error hattempt] at hafter
    refine ⟨[], ?_, .inl rfl⟩
    rw [← hafter, Act.left_of_error hconnect, List.append_nil]
  · obtain ⟨earlier, request, later, hsplit, hevents⟩ := events_of_sendAll_error hsend
    rw [Act.left_of_error hattempt] at hafter
    refine ⟨_, ?_, .inr ⟨earlier, request, later, e', hsplit, rfl⟩⟩
    rw [← hafter, Act.left_of_ok hconnect]
    exact hevents

/-- A run of a round that cannot be sent fails as the last of its attempts does. -/
theorem exists_run_error_of_barred [LawfulNetwork σ] (client : Client)
    (h : Barred requests good bad e) (session : Session σ) :
    ∃ struck last e', InRow client requests session struck last ∧ last.outcome = .error e' ∧
      client.run requests session = .error e' last.final := by
  obtain ⟨struck, last, hrow, -, -, hresult⟩ :=
    exists_inRow client requests client.policy.maxRetries session
  have hne : ¬ requests.isEmpty := by
    obtain ⟨later, rfl⟩ := h.split
    simp
  obtain ⟨e', he'⟩ := failed_of_barred h (hrow.made last (by simp))
  refine ⟨struck, last, e', hrow, he', ?_⟩
  rw [run, if_neg hne, hresult, he']
  rfl

theorem withheld_of_barred [LawfulNetwork σ] (client : Client) (h : Barred requests good bad e)
    (session : Session (Journal σ)) :
    ∃ struck last, Withheld client requests good e session struck last := by
  obtain ⟨struck, last, e', hrow, he', hrun⟩ := exists_run_error_of_barred client h session
  have hmade := hrow.made last (by simp)
  refine ⟨struck, last, hrow, ⟨e', he', hrun⟩, connected_of_run_error hrun, ?_, ?_, ?_⟩
  · exact fun a ha => onlySends_of_barred h (hrow.made a ha)
  · intro a ha hreaches
    -- what the network ends may be tried again, and what cannot be sent may not
    obtain ⟨e'', he'', hnetwork⟩ := hrow.ended a ha
    rw [outcome_of_reaches h (hrow.made a (List.mem_append_left _ ha)) hreaches] at he''
    obtain ⟨text, rfl⟩ := h.protocol
    cases he''
    cases hnetwork
  · intro hreaches
    rw [outcome_of_reaches h hmade hreaches] at he'
    cases he'
    exact hrun

end

end Client

/-! ## What the peer hears -/

namespace Link

section

variable {π : Type} {client : Client} {start : List Bytes}

/-- Since the `start`, a peer was handed requests of the greeting, one at a time, and nothing
else. -/
def HeardGreetings (client : Client) (start : List Bytes) (peer : Tapped π) : Prop :=
  ∃ pieces, peer.pieces = start ++ pieces ∧
    ∀ piece ∈ pieces, ∃ r ∈ client.greeting, r.encode = .ok piece

/-- Besides, nothing waits to be flushed. -/
structure Clear (client : Client) (start : List Bytes) (link : Link (Tapped π)) : Prop where
  heard : HeardGreetings client start link.peer
  unsent : link.unsent = []

theorem HeardGreetings.refl (client : Client) (peer : Tapped π) :
    HeardGreetings client peer.pieces peer :=
  ⟨[], (List.append_nil _).symm, by simp⟩

theorem HeardGreetings.snoc {peer later : Tapped π} (h : HeardGreetings client start peer)
    {piece : Bytes} (hlater : later.pieces = peer.pieces ++ [piece])
    (hpiece : ∃ r ∈ client.greeting, r.encode = .ok piece) :
    HeardGreetings client start later := by
  obtain ⟨pieces, hpieces, hall⟩ := h
  refine ⟨pieces ++ [piece], by rw [hlater, hpieces, List.append_assoc], ?_⟩
  intro p hp
  rcases List.mem_append.mp hp with hp | hp
  · exact hall p hp
  · rw [List.mem_singleton.mp hp]
    exact hpiece

/-- Every request of the greeting can be sent. -/
theorem isArgument_of_mem_greeting {r : Request} (hr : r ∈ client.greeting) :
    ∀ arg ∈ r.args, arg.isArgument := by
  rw [Client.greeting, Client.secretRequests_eq] at hr
  rcases List.mem_append.mp hr with hr | hr
  · cases hsecret : client.endpoint.secret? with
    | none => simp [hsecret] at hr
    | some secret =>
        rw [hsecret] at hr
        rw [List.mem_singleton.mp hr]
        exact List.forall_mem_singleton.mpr rfl
  · rw [List.mem_singleton.mp hr]
    exact List.forall_mem_singleton.mpr rfl

/-! ### Single calls -/

variable [Peer π] {link dialed : Link (Tapped π)}

theorem heard_dial (h : HeardGreetings client start link.peer) :
    HeardGreetings client start ((Network.dial client.endpoint).left link).peer := by
  change HeardGreetings client start ((Link.dial client.endpoint).left link).peer
  have haccept : Peer.accept client.endpoint link.peer =
      Tapped.pass (Peer.accept client.endpoint) link.peer := rfl
  rw [Act.left, Link.dial, haccept, Tapped.pass]
  cases Peer.accept client.endpoint link.peer.peer with
  | ok _ peer => exact h
  | error e peer => exact h

theorem unsent_of_dial (h : Network.dial client.endpoint link = .ok () dialed) :
    dialed.unsent = [] := by
  change Link.dial client.endpoint link = _ at h
  rw [Link.dial] at h
  split at h
  · cases h
    rfl
  · cases h

theorem peer_of_send (request : Request) :
    ((Network.send request).left link).peer = link.peer := by
  change ((Link.send request).left link).peer = link.peer
  rw [Act.left, Link.send]
  cases request.append link.unsent <;> rfl

/-- What is flushed is what waits, and no more waits after it. -/
theorem clear_flush (h : HeardGreetings client start link.peer)
    (hunsent : ∃ r ∈ client.greeting, r.encode = .ok link.unsent) :
    Clear client start ((Network.flush (σ := Link (Tapped π))).left link) := by
  change Clear client start (Act.left Link.flush link)
  have hhear : Peer.hear link.unsent link.peer = Tapped.pass (Peer.hear link.unsent)
      { link.peer with pieces := link.peer.pieces ++ [link.unsent] } := rfl
  rw [Act.left, Link.flush]
  by_cases hempty : link.unsent = []
  · rw [if_pos hempty]
    exact ⟨h, hempty⟩
  · rw [if_neg hempty, hhear, Tapped.pass]
    cases Peer.hear link.unsent link.peer.peer with
    | ok deliveries peer => exact ⟨h.snoc rfl hunsent, rfl⟩
    | error e peer => exact ⟨h.snoc rfl hunsent, rfl⟩

theorem keeps_receive :
    Act.Keeps (Clear client start) (Network.receive (σ := Link (Tapped π))) := by
  apply Act.keeps_of_left
  intro link h
  change Clear client start (Act.left Link.receive link)
  rw [Act.left, Link.receive]
  cases Wire.Inbox.receive link.inbox with
  | ok reply inbox => exact ⟨h.heard, h.unsent⟩
  | error e inbox => exact ⟨h.heard, h.unsent⟩

/-! ### The greeting -/

theorem keeps_ask {r : Request} (hr : r ∈ client.greeting) :
    Act.Keeps (Clear client start) (Network.ask (σ := Link (Tapped π)) r) := by
  apply Act.keeps_of_left
  intro link h
  have hargs := isArgument_of_mem_greeting hr
  let sent : Link (Tapped π) := { link with unsent := r.spelled.encode }
  have hsend : Network.send r link = .ok () sent := by
    change Link.send r link = _
    rw [Link.send, Request.append_eq_spelled hargs, h.unsent]
    rfl
  have hflush : Clear client start (Network.flush.left sent) :=
    clear_flush h.heard ⟨r, hr, Request.encode_eq_spelled hargs⟩
  rw [Network.ask, Act.left_bind_of_ok hsend]
  apply Act.left_bind hflush
  intro _ flushed _ hflushed
  exact (keeps_receive.bind fun _ => Act.keeps_ofExcept _).left hflushed

theorem keeps_select :
    Act.Keeps (Clear client start) (Network.select (σ := Link (Tapped π)) client.db) := by
  rw [Network.select]
  apply Act.Keeps.bind
  · apply keeps_ask
    exact List.mem_append_right _ (List.mem_singleton_self _)
  · exact fun _ => Act.keeps_ofExcept (.ok ())

theorem keeps_greet :
    Act.Keeps (Clear client start)
      (Network.greet (σ := Link (Tapped π)) client.endpoint client.db) := by
  have hsecrets := client.secretRequests_eq
  rw [Network.greet]
  cases hsecret : client.endpoint.secret? with
  | none => exact keeps_select
  | some secret =>
      rw [hsecret] at hsecrets
      apply Act.Keeps.bind
      · rw [Network.authenticate]
        apply Act.Keeps.bind
        · apply Act.Keeps.mapFailure
          apply keeps_ask
          rw [Client.greeting, hsecrets]
          exact List.mem_append_left _ (List.mem_singleton_self _)
        · exact fun _ => Act.keeps_ofExcept (.ok ())
      · exact fun _ => keeps_select

/-- What waited on the last connection is not heard on the new one. -/
theorem heard_establish (h : HeardGreetings client start link.peer) :
    HeardGreetings client start ((Network.establish client.endpoint client.db).left link).peer := by
  apply Network.left_establish
    (P := fun link : Link (Tapped π) => HeardGreetings client start link.peer) (heard_dial h)
  · intro dialed hdial hheard
    exact (keeps_greet.left ⟨hheard, unsent_of_dial hdial⟩).heard
  · exact fun _ hheard => hheard

/-- Sends alone hand nothing over. -/
theorem keeps_sendAll (requests : List Request) :
    Act.Keeps (fun link : Link (Tapped π) => HeardGreetings client start link.peer)
      (Network.sendAll requests) := by
  induction requests with
  | nil => exact Act.keeps_ofExcept (.ok ())
  | cons request requests ih =>
      apply Act.Keeps.bind
      · apply Act.keeps_of_left
        intro link h
        rw [peer_of_send]
        exact h
      · exact fun _ => ih

end

end Link

namespace Client

open Link

section

variable {π : Type} [Peer π] {client : Client} {requests good : List Request} {bad : Request}
  {e : Failure} {start : List Bytes} {session : Session (Link (Tapped π))}

theorem heard_connect (h : HeardGreetings client start session.network.peer) :
    HeardGreetings client start (client.connect.left session).network.peer := by
  by_cases hheld : session.connected = true
  · rw [Act.left_of_ok (connect_of_connected hheld)]
    exact h
  · rw [network_left_connect (by simpa using hheld)]
    exact heard_establish h

theorem heard_attempt (hbarred : Barred requests good bad e)
    (h : HeardGreetings client start session.network.peer) :
    HeardGreetings client start ((client.attempt requests).left session).network.peer := by
  have hready := heard_connect h
  rcases attempt_of_barred client hbarred session with
    ⟨e', after, hconnect, hattempt⟩ | ⟨ready, e', network, hconnect, hsend, hattempt⟩
  · rw [Act.left_of_error hconnect] at hready
    rw [Act.left_of_error hattempt]
    exact hready
  · rw [Act.left_of_ok hconnect] at hready
    rw [Act.left_of_error hattempt]
    exact (keeps_sendAll requests).error hready hsend

theorem heard_close (h : HeardGreetings client start session.network.peer) :
    HeardGreetings client start session.close.network.peer := by
  rw [Session.close]
  split
  · exact h
  · exact h

/-- A run whose round cannot be sent fails without a connection; it handed over requests of
the greeting alone, and whatever is done afterwards the peer is in the same state as if nothing
had waited to be sent. -/
structure Unheard (client : Client) (requests : List Request)
    (session : Session (Link (Tapped π))) : Prop where
  fails : ∃ e after, client.run requests session = .error e after
  closed : ((client.run requests).left session).connected = false
  heard : HeardGreetings client session.network.peer.pieces
    ((client.run requests).left session).network.peer
  forgotten : ∀ later : List Step,
    (client.steps later ((client.run requests).left session)).network.peer =
      (client.steps later ((client.run requests).left session).emptied).network.peer

theorem unheard_of_barred (client : Client) (h : Barred requests good bad e)
    (session : Session (Link (Tapped π))) : Unheard client requests session := by
  obtain ⟨struck, last, e', hrow, -, hrun⟩ := exists_run_error_of_barred client h session
  have hclosed := connected_of_run_error hrun
  have hleft := Act.left_of_error hrun
  refine ⟨⟨e', _, hrun⟩, ?_, ?_, ?_⟩
  · rw [hleft]
    exact hclosed
  · rw [hleft]
    apply hrow.keeps
      (P := fun s => HeardGreetings client session.network.peer.pieces s.network.peer)
    · exact fun s hs => heard_attempt h hs
    · exact fun s hs => heard_close hs
    · exact fun s ms hs => hs
    · exact .refl client _
  · intro later
    rw [hleft]
    exact (alike_steps client later (alike_emptied hclosed)).peer_eq

end

/-- A round in which some request cannot be sent is not carried to the peer, not even the part
of it that can be sent: its attempts only send, and no connection is left to flush later. Where
an attempt comes to the first such request, the run fails with the reason why it cannot be sent
and makes no other attempt. -/
theorem withheld_run (client : Client) {requests : List Request}
    (h : ∃ r ∈ requests, ∃ arg ∈ r.args, ¬ arg.isArgument) :
    ∃ good bad e, Barred requests good bad e ∧
      (∀ {σ : Type} [Network σ] [LawfulNetwork σ] (session : Session (Journal σ)),
        ∃ struck last, Withheld client requests good e session struck last) ∧
      ∀ {π : Type} [Peer π] (session : Session (Link (Tapped π))),
        Unheard client requests session := by
  obtain ⟨good, bad, e, hbarred⟩ := exists_barred h
  refine ⟨good, bad, e, hbarred, ?_, ?_⟩
  · intro σ _ _ session
    exact withheld_of_barred client hbarred session
  · intro π _ session
    exact unheard_of_barred client hbarred session

/-- A client that may try once more. -/
def secondChance : Client where
  endpoint := { address := "h:1", password := some "p" }
  policy := { maxRetries := 1, backoffMs := 5 }

/-- Two requests, of which the second has nil for an argument. -/
def strayNull : List Request :=
  [{ command := "get", args := [.ofText "k"] }, { command := "get", args := [.ofText "k", .null] }]

/-- The first dial fails. On the second connection the greeting is answered, and so would be
the requests. -/
def refusedOnce : Session (Journal Script) where
  network.state :=
    { dials := [some (.io "refused")], replies := List.replicate 4 (.ok (.simple "OK")) }

/-- A connection on which bytes wait to be flushed. -/
def halfSent : Session (Link (Tapped Recorder)) where
  network := { peer := { peer := {} }, unsent := [42] }
  connected := true

theorem withheld_run_strayNull :
    (∃ r ∈ strayNull, ∃ arg ∈ r.args, ¬ arg.isArgument) ∧
      (secondChance.run strayNull).outcome refusedOnce =
        .error (.protocol "Cannot send Null as a command argument") ∧
      ∃ good bad e, Barred strayNull good bad e ∧
        (∃ struck last, Withheld secondChance strayNull good e refusedOnce struck last) ∧
        Unheard secondChance strayNull halfSent := by
  have hstray : ∃ r ∈ strayNull, ∃ arg ∈ r.args, ¬ arg.isArgument := by decide
  obtain ⟨good, bad, e, hbarred, hwithheld, hunheard⟩ := withheld_run secondChance hstray
  exact ⟨hstray, by rfl, good, bad, e, hbarred, hwithheld refusedOnce, hunheard halfSent⟩

end Client

end RespClient
