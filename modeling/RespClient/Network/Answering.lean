import RespClient.Network

/-!
# Networks whose peer answers each request for itself

The peer answers the requests of a connection in order, each with the reply that a
function has for it. Any call may be struck by a failure of the network instead: a
schedule says which.
-/

namespace RespClient

/-- The network between a client and a peer that answers by `f`. -/
structure Answering (f : Request → Reply) where
  /-- The requests that are not flushed. -/
  queued : List Request := []
  /-- The replies that are not received. -/
  pending : List Reply := []
  /-- What strikes the calls to come, the next one first. -/
  faults : Nat → Option { e : Failure // e.isNetwork } := fun _ => none

namespace Answering

variable {f : Request → Reply} {α : Type}

/-- Make a call, unless it is struck. -/
def strike (call : Act (Answering f) α) : Act (Answering f) α := fun network =>
  let next := { network with faults := fun n => network.faults (n + 1) }
  match network.faults 0 with
  | some e => .error e.val next
  | none => call next

/-- A new connection starts with nothing sent and nothing to be received. -/
def dial : Act (Answering f) Unit :=
  strike fun network => .ok () { network with queued := [], pending := [] }

/-- Queue a request, if it has bytes. -/
def send (request : Request) : Act (Answering f) Unit :=
  strike fun network =>
    match request.encode with
    | .ok _ => .ok () { network with queued := network.queued ++ [request] }
    | .error e => .error e network

/-- Carry the queued requests to the peer, who answers each. -/
def flush : Act (Answering f) Unit :=
  strike fun network =>
    .ok () { network with queued := [], pending := network.pending ++ network.queued.map f }

/-- Take the next reply. Where none is under way, the deadline passes. -/
def receive : Act (Answering f) Reply :=
  strike fun network =>
    match network.pending with
    | [] => .error .timeout network
    | reply :: pending => .ok reply { network with pending }

instance : Network (Answering f) where
  dial _ := Answering.dial
  send := Answering.send
  flush := Answering.flush
  receive := Answering.receive
  close := id
  pause _ := id

/-- No call is struck any more. -/
def Calm (network : Answering f) : Prop :=
  ∀ n, network.faults n = none

/-- The network as it would be if no call were struck any more. -/
def calmed (network : Answering f) : Answering f :=
  { network with faults := fun _ => none }

theorem calm_calmed (network : Answering f) : network.calmed.Calm :=
  fun _ => rfl

end Answering

end RespClient
