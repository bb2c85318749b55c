/-!
# Failures

What an operation reports when it does not answer. The first three kinds come
from the network and may clear up on a new connection; the others do not.
-/

namespace RespClient

inductive Failure where
  /-- Reading, writing or dialing went wrong. -/
  | io (text : String)
  /-- A deadline passed. -/
  | timeout
  /-- There is no connection, or the peer ended it. -/
  | connection (text : String)
  /-- Bytes that are no reply, or a request that has no bytes. -/
  | protocol (text : String)
  /-- The server answered with an error reply. -/
  | server (text : String)
  /-- The server refused the secret. -/
  | auth (text : String)
  /-- A reply of another type than the one asked for. -/
  | conversion (text : String)
  /-- A reply of the right type that says something unforeseen. -/
  | unexpected (text : String)
  /-- The server's description of itself cannot be read. -/
  | invalidInfo (text : String)
  /-- The endpoint cannot be dialed as it is described. -/
  | config (text : String)
  /-- A reply that breaks what the protocol promises. -/
  | invariant (text : String)
  deriving DecidableEq, Repr

namespace Failure

def message : Failure → String
  | io text => "IO error: " ++ text
  | timeout => "Operation timed out"
  | connection text => "Connection error: " ++ text
  | protocol text => "Protocol error: " ++ text
  | server text => "Server error: " ++ text
  | auth text => "Authentication failed: " ++ text
  | conversion text => "Type conversion error: " ++ text
  | unexpected text => "Unexpected response: " ++ text
  | invalidInfo text => "Invalid info content: " ++ text
  | config text => "Invalid configuration: " ++ text
  | invariant text => "Invariant violation: " ++ text

/-- Whether the failure may clear up on a new connection. -/
def isNetwork : Failure → Bool
  | io _ | timeout | connection _ => true
  | _ => false

/-- Whether the server refused a command because the key holds another type. -/
def isWrongType : Failure → Bool
  | server text => "WRONGTYPE".toList.isPrefixOf text.toList
  | _ => false

/-- The peer ended the stream. -/
def closedByPeer : Failure :=
  .connection "Connection closed by server"

end Failure

/-- An action on a state of type `σ` that may fail. The state reached is kept
either way. -/
abbrev Act (σ α : Type) := EStateM Failure σ α

namespace Act

variable {σ α : Type}

@[simp] theorem pure_apply (a : α) (s : σ) : (pure a : Act σ α) s = .ok a s := rfl

theorem bind_apply {β : Type} (act : Act σ α) (next : α → Act σ β) (s : σ) :
    (act >>= next) s =
      match act s with
      | .ok a s => next a s
      | .error e s => .error e s := by
  change EStateM.bind act next s = _
  unfold EStateM.bind
  cases act s <;> rfl

/-- Two actions in a row succeed exactly when the first does and then the second. -/
theorem bind_eq_ok_iff {β : Type} {act : Act σ α} {next : α → Act σ β} {s t : σ} {b : β} :
    (act >>= next) s = .ok b t ↔ ∃ a u, act s = .ok a u ∧ next a u = .ok b t := by
  rw [bind_apply]
  cases act s with
  | ok a u =>
      constructor
      · intro h
        exact ⟨a, u, rfl, h⟩
      · rintro ⟨_, _, h, hnext⟩
        cases h
        exact hnext
  | error e u => simp

/-- Pass on an answer or a failure, leaving the state as it is. -/
def ofExcept : Except Failure α → Act σ α
  | .ok a => fun s => .ok a s
  | .error e => fun s => .error e s

@[simp] theorem ofExcept_ok (a : α) (s : σ) : ofExcept (.ok a) s = .ok a s := rfl

@[simp] theorem ofExcept_error (e : Failure) (s : σ) :
    ofExcept (.error e : Except Failure α) s = .error e s := rfl

/-- Report each failure as another one. -/
def mapFailure (f : Failure → Failure) (act : Act σ α) : Act σ α :=
  fun s =>
    match act s with
    | .ok a s => .ok a s
    | .error e s => .error (f e) s

end Act

end RespClient
