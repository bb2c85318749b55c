import RespClient.Proofs.Client.InStep
import RespClient.Proofs.Wire.Request

/-!
# Networks that bring given replies

The calls on a connection that serves a list of replies do not fail: what has bytes is
sent, and when requests were flushed, the replies come in the order of the list. A round
on it comes to one reply for each request, and the network goes on to serve the others.
-/

namespace RespClient

variable {σ : Type} [Network σ]

namespace Network

/-- The calls that do not fail on a connection, as `P` follows it: so many requests are
queued, so many replies are due, and these replies are still to come. -/
structure Obliging (P : (queued due : Nat) → List Reply → σ → Prop) : Prop where
  send : ∀ {queued due : Nat} {replies : List Reply} {request : Request} {bytes : Bytes} {s : σ},
    P queued due replies s → request.encode = .ok bytes →
      ∃ t, Network.send request s = .ok () t ∧ P (queued + 1) due replies t
  flush : ∀ {queued due : Nat} {replies : List Reply} {s : σ}, P queued due replies s →
    ∃ t, Network.flush s = .ok () t ∧ P 0 (due + queued) replies t
  receive : ∀ {due : Nat} {reply : Reply} {replies : List Reply} {s : σ},
    P 0 (due + 1) (reply :: replies) s →
      ∃ t, Network.receive s = .ok reply t ∧ P 0 due replies t

/-- The calls on the open connection do not fail and will bring these replies. -/
def Serves (replies : List Reply) (s : σ) : Prop :=
  ∃ P : (queued due : Nat) → List Reply → σ → Prop, Obliging P ∧ P 0 0 replies s

namespace Obliging

variable {P : (queued due : Nat) → List Reply → σ → Prop} {queued due : Nat}
  {requests : List Request} {replies rest : List Reply} {s : σ}

theorem sendAll (hP : Obliging P)
    (hbytes : ∀ request ∈ requests, ∃ bytes, request.encode = .ok bytes)
    (h : P queued due replies s) :
    ∃ t, Network.sendAll requests s = .ok () t ∧ P (queued + requests.length) due replies t := by
  induction requests generalizing queued s with
  | nil => exact ⟨s, rfl, h⟩
  | cons request requests ih =>
      obtain ⟨bytes, hencode⟩ := hbytes request List.mem_cons_self
      obtain ⟨sent, hsend, hsent⟩ := hP.send h hencode
      obtain ⟨t, hall, ht⟩ := ih (fun r hr => hbytes r (List.mem_cons_of_mem _ hr)) hsent
      refine ⟨t, ?_, ?_⟩
      · rw [Network.sendAll, Act.bind_eq_ok_iff]
        exact ⟨(), sent, hsend, hall⟩
      · rw [List.length_cons, Nat.add_comm requests.length, ← Nat.add_assoc]
        exact ht

theorem receiveMany (hP : Obliging P) (h : P 0 replies.length (replies ++ rest) s) :
    ∃ t, Network.receiveMany replies.length s = .ok replies t ∧ P 0 0 rest t := by
  induction replies generalizing s with
  | nil => exact ⟨s, rfl, h⟩
  | cons reply replies ih =>
      obtain ⟨u, hreceive, hu⟩ := hP.receive h
      obtain ⟨t, hmany, ht⟩ := ih hu
      refine ⟨t, ?_, ht⟩
      rw [List.length_cons, Network.receiveMany, Act.bind_eq_ok_iff]
      refine ⟨reply, u, hreceive, ?_⟩
      rw [Act.bind_eq_ok_iff]
      exact ⟨replies, t, hmany, rfl⟩

/-- A round with nothing under way brings the next replies. -/
theorem round (hP : Obliging P)
    (hbytes : ∀ request ∈ requests, ∃ bytes, request.encode = .ok bytes)
    (hlength : replies.length = requests.length) (h : P 0 0 (replies ++ rest) s) :
    ∃ t, Network.round requests s = .ok replies t ∧ P 0 0 rest t := by
  obtain ⟨queued, hsend, hqueued⟩ := hP.sendAll hbytes h
  obtain ⟨flushed, hflush, hflushed⟩ := hP.flush hqueued
  rw [Nat.zero_add, Nat.zero_add, ← hlength] at hflushed
  obtain ⟨t, hreceive, ht⟩ := hP.receiveMany hflushed
  refine ⟨t, ?_, ht⟩
  rw [Network.round, Act.bind_eq_ok_iff]
  refine ⟨(), queued, hsend, ?_⟩
  rw [Act.bind_eq_ok_iff, ← hlength]
  exact ⟨(), flushed, hflush, hreceive⟩

end Obliging

end Network

open Network

/-! ## Journals -/

namespace Journal

/-- Writing the calls down does not make them fail. -/
theorem obliging {P : (queued due : Nat) → List Reply → σ → Prop} (hP : Obliging P) :
    Obliging fun queued due replies (journal : Journal σ) => P queued due replies journal.state := by
  constructor
  · intro queued due replies request bytes journal h hencode
    obtain ⟨t, hsend, ht⟩ := hP.send h hencode
    exact ⟨_, record_of_ok hsend, ht⟩
  · intro queued due replies journal h
    obtain ⟨t, hflush, ht⟩ := hP.flush h
    exact ⟨_, record_of_ok hflush, ht⟩
  · intro due reply replies journal h
    obtain ⟨t, hreceive, ht⟩ := hP.receive h
    exact ⟨_, record_of_ok hreceive, ht⟩

end Journal

/-! ## Scripts -/

/-- A script with nothing but replies. -/
def Script.ofReplies (replies : List Reply) : Script where
  replies := replies.map .ok

theorem Script.serves_ofReplies (replies : List Reply) :
    Serves replies (Script.ofReplies replies) := by
  refine ⟨fun _ _ replies script => script.sends = [] ∧ script.flushes = [] ∧
    script.replies = replies.map .ok, ⟨?_, ?_, ?_⟩, rfl, rfl, rfl⟩
  · rintro queued due replies request bytes script ⟨hsends, hflushes, hreplies⟩ hencode
    refine ⟨{ script with sends := [] }, ?_, rfl, hflushes, hreplies⟩
    show Script.send request script = _
    rw [Script.send, hencode, hsends]
    rfl
  · rintro queued due replies script ⟨hsends, hflushes, hreplies⟩
    refine ⟨{ script with flushes := [] }, ?_, hsends, rfl, hreplies⟩
    show Script.flush script = _
    rw [Script.flush, hflushes]
    rfl
  · rintro due reply replies script ⟨hsends, hflushes, hreplies⟩
    refine ⟨{ script with replies := replies.map .ok }, ?_, hsends, hflushes, rfl⟩
    show Script.receive script = _
    rw [Script.receive, hreplies]
    rfl

/-! ## Clients -/

namespace Client

variable {client : Client} {session ready : Session σ} {requests : List Request}
  {replies rest : List Reply}

/-- The client holds a connection that will bring these replies, or can open one. -/
def Served (client : Client) (replies : List Reply) (session : Session σ) : Prop :=
  ∃ ready, client.connect session = .ok () ready ∧ Serves replies ready.network

theorem attempt_of_round {network : σ} (hconnect : client.connect session = .ok () ready)
    (hround : Network.round requests ready.network = .ok replies network) :
    client.attempt requests session = .ok replies { network, connected := true } := by
  have hready := connected_of_connect hconnect
  rw [attempt, Act.bind_eq_ok_iff]
  refine ⟨(), ready, hconnect, ?_⟩
  rw [onConnection_of_connected hready, Session.onNetwork, hround]
  dsimp only
  rw [hready]

/-- A run whose first attempt brings the replies needs no other. -/
theorem run_of_round {network : σ} (hne : requests ≠ [])
    (hconnect : client.connect session = .ok () ready)
    (hround : Network.round requests ready.network = .ok replies network) :
    client.run requests session = .ok replies { network, connected := true } := by
  rw [run, if_neg (by simpa using hne)]
  -- the policy does not matter: no attempt follows one that succeeds
  exact attemptUpTo_of_ok (attempt_of_round hconnect hround) _

theorem served_of_connected (hconnected : session.connected = true)
    (h : Serves replies session.network) : client.Served replies session :=
  ⟨session, connect_of_connected hconnected, h⟩

end Client

end RespClient
