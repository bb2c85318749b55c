import RespClient.Endpoint
import RespClient.Wire.Request

/-!
# Networks

A network is what a client needs of the world: it opens one connection at a
time, carries requests to the peer and replies back, and lets time pass. Its
state is of any type, so that the same client runs over a byte stream, over a
script, or over any other behaviour of the calls.
-/

namespace RespClient

class Network (σ : Type) where
  /-- Open a new connection in place of the last one. -/
  dial : Endpoint → Act σ Unit
  /-- Queue a request on the open connection. -/
  send : Request → Act σ Unit
  /-- Carry all queued requests to the peer. -/
  flush : Act σ Unit
  /-- Wait for the next reply. -/
  receive : Act σ Reply
  /-- Give the open connection up. -/
  close : σ → σ
  /-- Let some milliseconds pass. -/
  pause : Nat → σ → σ

/-- A network that carries requests as bytes: one that has none is refused for
just that reason. -/
class LawfulNetwork (σ : Type) [Network σ] : Prop where
  send_unsendable : ∀ {request : Request} {e : Failure}, request.encode = .error e →
    ∀ s : σ, ∃ s', Network.send request s = .error e s'

namespace Network

variable {σ : Type} [Network σ]

/-- Send one request and wait for its reply; an error reply is a failure. -/
def ask (request : Request) : Act σ Reply := do
  send request
  flush
  let reply ← receive
  Act.ofExcept reply.answer

/-- Queue several requests in order. -/
def sendAll : List Request → Act σ Unit
  | [] => pure ()
  | request :: requests => do
      send request
      sendAll requests

/-- Wait for several replies. -/
def receiveMany : Nat → Act σ (List Reply)
  | 0 => pure []
  | n + 1 => do
      let reply ← receive
      let replies ← receiveMany n
      pure (reply :: replies)

theorem length_of_receiveMany {n : Nat} {replies : List Reply} {s t : σ}
    (h : receiveMany n s = .ok replies t) : replies.length = n := by
  induction n generalizing replies s t with
  | zero =>
      cases h
      rfl
  | succ n ih =>
      rw [receiveMany, Act.bind_eq_ok_iff] at h
      obtain ⟨reply, u, -, h⟩ := h
      rw [Act.bind_eq_ok_iff] at h
      obtain ⟨rest, v, hrest, h⟩ := h
      cases h
      rw [List.length_cons, ih hrest]

/-- One round trip for several requests: queue all, carry them to the peer at
once, and wait for one reply each. Error replies are replies like any other. -/
def round (requests : List Request) : Act σ (List Reply) := do
  sendAll requests
  flush
  receiveMany requests.length

theorem length_of_round {requests : List Request} {replies : List Reply} {s t : σ}
    (h : round requests s = .ok replies t) : replies.length = requests.length := by
  rw [round, Act.bind_eq_ok_iff] at h
  obtain ⟨_, _, -, h⟩ := h
  rw [Act.bind_eq_ok_iff] at h
  obtain ⟨_, _, -, h⟩ := h
  exact length_of_receiveMany h

/-- Present a secret. A server's refusal is a failure to authenticate. -/
def authenticate (method : AuthMethod) (secret : String) : Act σ Unit := do
  let _ ← (ask { command := method.command, args := [.ofText secret] }).mapFailure fun e =>
    match e with
    | .server text => .auth text
    | e => e

/-- Choose a database. -/
def select (db : UInt32) : Act σ Unit := do
  let _ ← ask { command := "select", args := [.integer (Int64.ofNat db.toNat)] }

/-- What comes before the first request on a new connection: the secret, if
there is one, and the database. -/
def greet (endpoint : Endpoint) (db : UInt32) : Act σ Unit := do
  match endpoint.secret? with
  | some secret => authenticate endpoint.authMethod secret
  | none => pure ()
  select db

/-- A connection that is ready for requests. One that fails on the way is given
up. -/
def establish (endpoint : Endpoint) (db : UInt32) : Act σ Unit := fun s =>
  match dial endpoint s with
  | .error e s => .error e s
  | .ok _ s =>
      match greet endpoint db s with
      | .error e s => .error e (close s)
      | .ok _ s => .ok () s

end Network

end RespClient
