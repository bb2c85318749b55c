import RespClient.Wire.Frame

/-!
# Reading a stream as it arrives

A reader keeps the bytes that are not read yet and the arrays that are not full
yet, innermost first. Every frame is read once: when bytes run out, the items
already read stay in the open arrays until more bytes are fed.
-/

namespace RespClient

namespace Wire

/-- An array whose head has been read: how many items are missing, and the
items so far, last first. -/
structure OpenArray where
  missing : Nat
  seen : List Reply
  deriving DecidableEq, Repr

structure Reader where
  buffer : Bytes := []
  unfilled : List OpenArray := []
  deriving DecidableEq, Repr

/-- What a reader comes to with the bytes it has. -/
inductive Progress where
  | reply (value : Reply) (reader : Reader)
  | starved (reader : Reader)
  | malformed (fault : Fault) (reader : Reader)
  deriving DecidableEq, Repr

namespace Reader

/-- Put a value into the innermost open array. An array that this fills is the
next value; a value with no array around it is the reply. -/
def attach (value : Reply) : List OpenArray → Option Reply × List OpenArray
  | [] => (some value, [])
  | inner :: outer =>
      if inner.missing ≤ 1 then attach (.array (value :: inner.seen).reverse) outer
      else (none, { missing := inner.missing - 1, seen := value :: inner.seen } :: outer)

/-- Read frames until a reply is complete, bytes run out or a fault comes up. A
fault and the open arrays around it stay where they are. -/
def advance (reader : Reader) : Progress :=
  match _h : frame reader.buffer with
  | .incomplete => .starved reader
  | .malformed fault => .malformed fault reader
  | .item (.arrayHead length) rest =>
      advance { buffer := rest, unfilled := ⟨length, []⟩ :: reader.unfilled }
  | .item (.value value) rest =>
      match attach value reader.unfilled with
      | (some reply, outer) => .reply reply { buffer := rest, unfilled := outer }
      | (none, outer) => advance { buffer := rest, unfilled := outer }
termination_by reader.buffer.length
decreasing_by
  all_goals
    have hlen := length_add_three_le_of_frame _h
    omega

/-- Add bytes that have arrived. -/
def feed (bytes : Bytes) (reader : Reader) : Reader :=
  { reader with buffer := reader.buffer ++ bytes }

end Reader

/-- What a stream brings next. -/
inductive Delivery where
  | bytes (chunk : Bytes)
  /-- The deadline of the call that waits. -/
  | expired
  /-- The stream breaks. -/
  | broken (text : String)
  deriving DecidableEq, Repr

/-- A stream and its reader: deliveries still to come, after which the stream
has ended. -/
structure Inbox where
  coming : List Delivery := []
  reader : Reader := {}
  deriving DecidableEq, Repr

/-- Wait for the next reply. Deliveries are taken only when the reader lacks
bytes, and a deadline loses nothing that was read. -/
def receiveFrom (reader : Reader) : (coming : List Delivery) →
    EStateM.Result Failure Inbox Reply
  | [] =>
      match reader.advance with
      | .reply value reader => .ok value ⟨[], reader⟩
      | .malformed fault reader => .error fault.failure ⟨[], reader⟩
      | .starved reader => .error .closedByPeer ⟨[], reader⟩
  | delivery :: coming =>
      match reader.advance with
      | .reply value reader => .ok value ⟨delivery :: coming, reader⟩
      | .malformed fault reader => .error fault.failure ⟨delivery :: coming, reader⟩
      | .starved reader =>
          match delivery with
          | .expired => .error .timeout ⟨coming, reader⟩
          | .broken text => .error (.io text) ⟨coming, reader⟩
          | .bytes chunk => receiveFrom (reader.feed chunk) coming

def Inbox.receive : Act Inbox Reply := fun inbox =>
  receiveFrom inbox.reader inbox.coming

end Wire

end RespClient
