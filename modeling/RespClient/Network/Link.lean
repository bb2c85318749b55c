import RespClient.Network
import RespClient.Wire.Reader

/-!
# Connections over a byte stream

A link keeps the bytes of requests until they are flushed, hands them to the
peer in one piece, and reads replies from what the peer sends back.
-/

namespace RespClient

/-- The other end of a link. -/
class Peer (π : Type) where
  /-- Take up a connection. -/
  accept : Endpoint → Act π Unit
  /-- Take in bytes, and say what the stream brings for them. -/
  hear : Bytes → Act π (List Wire.Delivery)
  /-- The connection is given up. -/
  hangUp : π → π

/-- A connection to a peer: the stream with its reader, and the bytes of
requests that are not flushed. -/
structure Link (π : Type) where
  peer : π
  inbox : Wire.Inbox := {}
  unsent : Bytes := []

namespace Link

variable {π : Type}

/-- A new connection starts with nothing sent and nothing read. -/
def dial [Peer π] (endpoint : Endpoint) : Act (Link π) Unit := fun link =>
  match Peer.accept endpoint link.peer with
  | .ok _ peer => .ok () { peer }
  | .error e peer => .error e { link with peer }

/-- Queue the bytes of a request. Bytes before an argument that cannot be sent
stay queued. -/
def send (request : Request) : Act (Link π) Unit := fun link =>
  match request.append link.unsent with
  | .ok _ unsent => .ok () { link with unsent }
  | .error e unsent => .error e { link with unsent }

/-- Hand the queued bytes over; without any there is no call on the stream. -/
def flush [Peer π] : Act (Link π) Unit := fun link =>
  if link.unsent = [] then .ok () link
  else
    match Peer.hear link.unsent link.peer with
    | .ok deliveries peer =>
        let inbox := { link.inbox with coming := link.inbox.coming ++ deliveries }
        .ok () { peer, inbox, unsent := [] }
    | .error e peer => .error e { link with peer, unsent := [] }

def receive : Act (Link π) Reply := fun link =>
  match Wire.Inbox.receive link.inbox with
  | .ok reply inbox => .ok reply { link with inbox }
  | .error e inbox => .error e { link with inbox }

instance [Peer π] : Network (Link π) where
  dial := Link.dial
  send := Link.send
  flush := Link.flush
  receive := Link.receive
  close link := { link with peer := Peer.hangUp link.peer }
  pause _ := id

instance [Peer π] : LawfulNetwork (Link π) where
  send_unsendable {request e} h link := by
    obtain ⟨unsent, hu⟩ := Request.append_eq_error h link.unsent
    refine ⟨{ link with unsent }, ?_⟩
    change Link.send request link = _
    simp only [Link.send, hu]

end Link

end RespClient
