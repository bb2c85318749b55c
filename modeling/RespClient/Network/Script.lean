import RespClient.Network

/-!
# Scripted networks

A network that answers from four lists, one for each kind of call. The lists
belong to no connection: a new one goes on where the last one stopped. Calls
succeed once their list is used up, except that a reply is then missing and the
peer seems to have closed the connection.
-/

namespace RespClient

structure Script where
  dials : List (Option Failure) := []
  sends : List (Option Failure) := []
  flushes : List (Option Failure) := []
  replies : List (Except Failure Reply) := []

namespace Script

/-- The outcome at the head of a list of outcomes, and the list after it. -/
def take : List (Option Failure) → Except Failure Unit × List (Option Failure)
  | [] => (.ok (), [])
  | none :: outcomes => (.ok (), outcomes)
  | some e :: outcomes => (.error e, outcomes)

def dial (script : Script) : EStateM.Result Failure Script Unit :=
  let (outcome, dials) := take script.dials
  Act.ofExcept outcome { script with dials }

/-- A request without bytes is refused and uses up nothing. -/
def send (request : Request) (script : Script) : EStateM.Result Failure Script Unit :=
  match request.encode with
  | .error e => .error e script
  | .ok _ =>
      let (outcome, sends) := take script.sends
      Act.ofExcept outcome { script with sends }

def flush (script : Script) : EStateM.Result Failure Script Unit :=
  let (outcome, flushes) := take script.flushes
  Act.ofExcept outcome { script with flushes }

def receive (script : Script) : EStateM.Result Failure Script Reply :=
  match script.replies with
  | [] => .error .closedByPeer script
  | outcome :: replies => Act.ofExcept outcome { script with replies }

instance : Network Script where
  dial _ := Script.dial
  send := Script.send
  flush := Script.flush
  receive := Script.receive
  close := id
  pause _ := id

instance : LawfulNetwork Script where
  send_unsendable {request _} h s := ⟨s, by
    change Script.send request s = _
    simp [Script.send, h]⟩

end Script

end RespClient
