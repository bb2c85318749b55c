import RespClient.Network.Link

/-!
# Peers that record

A peer keeps every byte that it is sent. Its answers are laid out beforehand: each time it
is handed bytes it sends the next one, in the chunks that it is cut up in. Any other peer
can be listened to as well, which does not change what it does.
-/

namespace RespClient

structure Recorder where
  /-- All the bytes that were sent, in order. -/
  heard : Bytes := []
  /-- The answers to come, each as its chunks. -/
  answers : List (List Bytes) := []
  deriving DecidableEq, Repr

namespace Recorder

/-- What the stream brings when an answer arrives in some chunks. -/
def arrive (chunks : List Bytes) : List Wire.Delivery :=
  chunks.map .bytes

def hear (bytes : Bytes) (peer : Recorder) :
    EStateM.Result Failure Recorder (List Wire.Delivery) :=
  match peer.answers with
  | [] => .ok [] { peer with heard := peer.heard ++ bytes }
  | chunks :: answers => .ok (arrive chunks) { heard := peer.heard ++ bytes, answers }

instance : Peer Recorder where
  accept _ := pure ()
  hear := Recorder.hear
  hangUp := id

end Recorder

/-- Any peer, with the pieces of bytes that were handed to it, in order. -/
structure Tapped (π : Type) where
  peer : π
  pieces : List Bytes := []

namespace Tapped

variable {π α : Type}

/-- Let the peer itself act. -/
def pass (act : Act π α) : Act (Tapped π) α := fun tapped =>
  match act tapped.peer with
  | .ok a peer => .ok a { tapped with peer }
  | .error e peer => .error e { tapped with peer }

instance [Peer π] : Peer (Tapped π) where
  accept endpoint := pass (Peer.accept endpoint)
  hear bytes := fun tapped =>
    pass (Peer.hear bytes) { tapped with pieces := tapped.pieces ++ [bytes] }
  hangUp tapped := { tapped with peer := Peer.hangUp tapped.peer }

end Tapped

end RespClient
