import RespClient.Network.Link
import RespClient.Proofs.Client.Greeting

/-!
# What a connection takes with it

The bytes that wait to be flushed, and those that were read ahead, belong to a connection:
the next one starts without them. So two sessions without a connection are alike where the
peer is in the same state, and whatever is done with them then goes the same way.
-/

namespace RespClient

variable {π α β : Type}

/-- The same peer without a connection: nothing waits to be flushed, and nothing was read
ahead. -/
def Session.emptied (session : Session (Link π)) : Session (Link π) where
  network := { peer := session.network.peer }

/-- Two sessions that the peer cannot tell apart: they are the same, or neither has a
connection. -/
inductive Alike : Session (Link π) → Session (Link π) → Prop
  | same (session : Session (Link π)) : Alike session session
  | closed {s t : Session (Link π)} (hs : s.connected = false) (ht : t.connected = false)
      (hpeer : s.network.peer = t.network.peer) : Alike s t

/-- Two results that differ in nothing but sessions that are alike. -/
inductive Agree : EStateM.Result Failure (Session (Link π)) α →
    EStateM.Result Failure (Session (Link π)) α → Prop
  | ok (a : α) {s t : Session (Link π)} (h : Alike s t) : Agree (.ok a s) (.ok a t)
  | error (e : Failure) {s t : Session (Link π)} (h : Alike s t) :
      Agree (.error e s) (.error e t)

/-- An action that goes the same way on sessions that are alike. -/
def Blind (act : Act (Session (Link π)) α) : Prop :=
  ∀ s t, Alike s t → Agree (act s) (act t)

/-! ## Sessions that are alike -/

theorem Alike.peer_eq {s t : Session (Link π)} (h : Alike s t) :
    s.network.peer = t.network.peer := by
  cases h with
  | same => rfl
  | closed _ _ hpeer => exact hpeer

theorem alike_emptied {session : Session (Link π)} (h : session.connected = false) :
    Alike session session.emptied :=
  .closed h rfl rfl

theorem Agree.refl (result : EStateM.Result Failure (Session (Link π)) α) :
    Agree result result := by
  cases result with
  | ok a s => exact .ok a (.same s)
  | error e s => exact .error e (.same s)

theorem Blind.left {act : Act (Session (Link π)) α} (h : Blind act) {s t : Session (Link π)}
    (halike : Alike s t) : Alike (act.left s) (act.left t) := by
  have hagree := h s t halike
  rw [Act.left, Act.left]
  generalize act s = result, act t = other at hagree ⊢
  cases hagree with
  | ok _ hafter => exact hafter
  | error _ hafter => exact hafter

theorem blind_ofExcept (outcome : Except Failure α) :
    Blind (Act.ofExcept (σ := Session (Link π)) outcome) := by
  intro s t halike
  cases outcome with
  | ok a => exact .ok a halike
  | error e => exact .error e halike

theorem Blind.bind {act : Act (Session (Link π)) α} {next : α → Act (Session (Link π)) β}
    (h : Blind act) (hnext : ∀ a, Blind (next a)) : Blind (act >>= next) := by
  intro s t halike
  have hagree := h s t halike
  rw [Act.bind_apply, Act.bind_apply]
  generalize act s = result, act t = other at hagree ⊢
  cases hagree with
  | ok a hafter => exact hnext a _ _ hafter
  | error e hafter => exact .error e hafter

/-! ## What a client does -/

/-- What depends on replies alone goes the same way where every round does. -/
theorem Plan.blind_run {carry : List Request → Act (Session (Link π)) (List Reply)}
    (h : ∀ requests, Blind (carry requests)) (plan : Plan α) : Blind (plan.run carry) := by
  induction plan with
  | answer outcome => exact blind_ofExcept outcome
  | round requests blame next ih =>
      intro s t halike
      have hagree := h requests s t halike
      rw [run_round, run_round]
      generalize carry requests s = result, carry requests t = other at hagree ⊢
      cases hagree with
      | ok replies hafter => exact ih replies _ _ hafter
      | error e hafter => exact .error _ hafter

theorem Client.blind_onConnection (client : Client) (call : Act (Link π) α) :
    Blind (client.onConnection call) := by
  intro s t halike
  cases halike with
  | same => exact .refl _
  | closed hs ht hpeer =>
      rw [Client.onConnection, Client.onConnection, if_neg (by simp [hs]), if_neg (by simp [ht])]
      exact .error _ (.closed hs ht hpeer)

variable [Peer π]

theorem Alike.close {s t : Session (Link π)} (h : Alike s t) : Alike s.close t.close := by
  cases h with
  | same => exact .same _
  | closed hs ht hpeer =>
      rw [Session.close_of_connected_eq_false hs, Session.close_of_connected_eq_false ht]
      exact .closed hs ht hpeer

theorem Alike.pause {s t : Session (Link π)} (h : Alike s t) (ms : Nat) :
    Alike (s.pause ms) (t.pause ms) := by
  cases h with
  | same => exact .same _
  | closed hs ht hpeer => exact .closed hs ht hpeer

/-- A dial goes the same way whatever waits on the last connection. -/
theorem Link.dial_of_peer_eq (endpoint : Endpoint) {link other : Link π}
    (h : link.peer = other.peer) :
    Network.dial endpoint link = Network.dial endpoint other ∨
      ∃ e peer, Network.dial endpoint link = .error e { link with peer } ∧
        Network.dial endpoint other = .error e { other with peer } := by
  change Link.dial endpoint link = Link.dial endpoint other ∨
    ∃ e peer, Link.dial endpoint link = .error e { link with peer } ∧
      Link.dial endpoint other = .error e { other with peer }
  rw [Link.dial, Link.dial, h]
  cases Peer.accept endpoint other.peer with
  | ok _ peer => exact .inl rfl
  | error e peer => exact .inr ⟨e, peer, rfl, rfl⟩

namespace Client

theorem blind_connect (client : Client) : Blind (π := π) client.connect := by
  intro s t halike
  cases halike with
  | same => exact .refl _
  | closed hs ht hpeer =>
      rw [connect, connect, if_neg (by simp [hs]), if_neg (by simp [ht]), Network.establish,
        Network.establish]
      rcases Link.dial_of_peer_eq client.endpoint hpeer with heq | ⟨e, peer, hfirst, hsecond⟩
      · rw [heq]
        exact .refl _
      · rw [hfirst, hsecond]
        exact .error e (.closed rfl rfl rfl)

theorem blind_attempt (client : Client) (requests : List Request) :
    Blind (π := π) (client.attempt requests) :=
  (blind_connect client).bind fun _ => blind_onConnection client _

theorem blind_attemptUpTo (client : Client) (requests : List Request) (retries : Nat) :
    Blind (π := π) (client.attemptUpTo requests retries) := by
  induction retries with
  | zero =>
      intro s t halike
      have hagree := blind_attempt client requests s t halike
      simp only [attemptUpTo]
      generalize client.attempt requests s = result, client.attempt requests t = other at hagree ⊢
      cases hagree with
      | ok replies hafter => exact .ok replies hafter
      | error e hafter => exact .error e hafter.close
  | succ retries ih =>
      intro s t halike
      have hagree := blind_attempt client requests s t halike
      simp only [attemptUpTo]
      generalize client.attempt requests s = result, client.attempt requests t = other at hagree ⊢
      cases hagree with
      | ok replies hafter => exact .ok replies hafter
      | error e hafter =>
          dsimp only
          split
          · exact ih _ _ (hafter.close.pause _)
          · exact .error e hafter.close

theorem blind_run (client : Client) (requests : List Request) :
    Blind (π := π) (client.run requests) := by
  rw [run]
  split
  · exact blind_ofExcept (.ok [])
  · exact blind_attemptUpTo client requests _

theorem blind_perform (client : Client) (op : Operation α) :
    Blind (π := π) (op.perform client) := by
  rw [Operation.perform_eq_run]
  exact op.plan.blind_run (blind_run client)

theorem blind_start (client : Client) : Blind (π := π) client.start := by
  apply (blind_ofExcept client.endpoint.validate).bind
  intro _
  apply (blind_perform client (.execute { command := "ping" })).bind
  intro reply
  split
  · exact blind_ofExcept (.ok ())
  · exact fun s t halike => .error _ halike.close

theorem alike_take (client : Client) (step : Step) {s t : Session (Link π)} (h : Alike s t) :
    Alike (client.take s step) (client.take t step) := by
  cases step with
  | start => exact (blind_start client).left h
  | perform op => exact (blind_perform client op).left h
  | close => exact h.close

/-- Whatever is done with them, sessions that are alike stay alike. -/
theorem alike_steps (client : Client) (later : List Step) {s t : Session (Link π)}
    (h : Alike s t) : Alike (client.steps later s) (client.steps later t) := by
  induction later generalizing s t with
  | nil => exact h
  | cons step later ih => exact ih (alike_take client step h)

end Client

end RespClient
