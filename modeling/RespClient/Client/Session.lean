import RespClient.Network

/-!
# Sessions

A session is a network and the knowledge whether a connection is open on it. A
client opens the connection when it needs one and gives it up as soon as
something on it has gone wrong.
-/

namespace RespClient

structure Session (σ : Type) where
  network : σ
  connected : Bool := false
  deriving DecidableEq, Repr

/-- What a client is set up with. -/
structure Client where
  endpoint : Endpoint
  db : UInt32 := 0
  policy : RetryPolicy := {}
  deriving DecidableEq, Repr

namespace Session

variable {σ α : Type}

/-- Call the network. -/
def onNetwork (call : Act σ α) : Act (Session σ) α := fun session =>
  match call session.network with
  | .ok a network => .ok a { session with network }
  | .error e network => .error e { session with network }

/-- Give up the connection, if one is open. -/
def close [Network σ] (session : Session σ) : Session σ :=
  if session.connected then { network := Network.close session.network, connected := false }
  else session

@[simp] theorem connected_close [Network σ] (session : Session σ) :
    session.close.connected = false := by
  unfold close
  split
  · rfl
  · next h => simpa using h

/-- Without a connection there is nothing to give up. -/
theorem close_of_connected_eq_false [Network σ] {session : Session σ}
    (h : session.connected = false) : session.close = session := by
  simp [close, h]

/-- Let some milliseconds pass. -/
def pause [Network σ] (ms : Nat) (session : Session σ) : Session σ :=
  { session with network := Network.pause ms session.network }

@[simp] theorem connected_pause [Network σ] (ms : Nat) (session : Session σ) :
    (session.pause ms).connected = session.connected := rfl

end Session

namespace Client

variable {σ α : Type}

/-- Call the network over the open connection. -/
def onConnection (client : Client) (call : Act σ α) : Act (Session σ) α := fun session =>
  if session.connected then Session.onNetwork call session
  else .error (.connection (client.endpoint.label ++ " is not connected")) session

theorem onConnection_of_connected {client : Client} {call : Act σ α} {session : Session σ}
    (h : session.connected = true) :
    client.onConnection call session = Session.onNetwork call session := by
  rw [onConnection, if_pos h]

variable [Network σ]

/-- Open a connection, unless one is open. -/
def connect (client : Client) : Act (Session σ) Unit := fun session =>
  if session.connected then .ok () session
  else
    match Network.establish client.endpoint client.db session.network with
    | .ok _ network => .ok () { network, connected := true }
    | .error e network => .error e { network, connected := false }

theorem connect_of_connected {client : Client} {session : Session σ}
    (h : session.connected = true) : client.connect session = .ok () session := by
  rw [connect, if_pos h]

theorem connected_of_connect {client : Client} {session after : Session σ}
    (h : client.connect session = .ok () after) : after.connected = true := by
  rw [connect] at h
  split at h
  · next hconnected =>
      cases h
      exact hconnected
  · split at h <;> cases h
    rfl

end Client

end RespClient
