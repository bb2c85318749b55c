import RespClient.Network

/-!
# Networks with a journal

Any network can be given a journal of the calls made on it, in order, each with
its outcome. The calls themselves are not changed.
-/

namespace RespClient

instance decidableEqOutcome {ε α : Type} [DecidableEq ε] [DecidableEq α] :
    DecidableEq (Except ε α)
  | .ok _, .ok _ => decidable_of_decidable_of_iff ⟨congrArg Except.ok, Except.ok.inj⟩
  | .error _, .error _ => decidable_of_decidable_of_iff ⟨congrArg Except.error, Except.error.inj⟩
  | .ok _, .error _ | .error _, .ok _ => isFalse nofun

/-- One call on a network, and what came of it. -/
inductive Event where
  | dial (endpoint : Endpoint) (outcome : Except Failure Unit)
  | send (request : Request) (outcome : Except Failure Unit)
  | flush (outcome : Except Failure Unit)
  | receive (outcome : Except Failure Reply)
  | close
  | pause (ms : Nat)
  deriving DecidableEq

/-- A network's state and the calls made on it so far. -/
structure Journal (σ : Type) where
  state : σ
  events : List Event := []

namespace Journal

variable {σ α : Type}

/-- Make a call and write it down. -/
def record (event : Except Failure α → Event) (call : Act σ α) : Act (Journal σ) α :=
  fun journal =>
    match call journal.state with
    | .ok a state => .ok a ⟨state, journal.events ++ [event (.ok a)]⟩
    | .error e state => .error e ⟨state, journal.events ++ [event (.error e)]⟩

theorem record_of_ok {event : Except Failure α → Event} {call : Act σ α} {a : α}
    {journal : Journal σ} {state : σ} (h : call journal.state = .ok a state) :
    record event call journal = .ok a ⟨state, journal.events ++ [event (.ok a)]⟩ := by
  simp only [record, h]

/-- The milliseconds let pass in some calls. -/
def paused : List Event → Nat
  | [] => 0
  | .pause ms :: events => ms + paused events
  | _ :: events => paused events

instance [Network σ] : Network (Journal σ) where
  dial endpoint := record (.dial endpoint) (Network.dial endpoint)
  send request := record (.send request) (Network.send request)
  flush := record .flush Network.flush
  receive := record .receive Network.receive
  close journal := ⟨Network.close journal.state, journal.events ++ [.close]⟩
  pause ms journal := ⟨Network.pause ms journal.state, journal.events ++ [.pause ms]⟩

instance [Network σ] [LawfulNetwork σ] : LawfulNetwork (Journal σ) where
  send_unsendable {request e} h journal := by
    obtain ⟨state, hs⟩ := LawfulNetwork.send_unsendable h journal.state
    refine ⟨⟨state, journal.events ++ [.send request (.error e)]⟩, ?_⟩
    change record (.send request) (Network.send request) journal = _
    simp only [record, hs]

@[simp] theorem paused_append (xs ys : List Event) :
    paused (xs ++ ys) = paused xs + paused ys := by
  induction xs with
  | nil => simp [paused]
  | cons event events ih => cases event <;> simp [paused, ih, Nat.add_assoc]

end Journal

end RespClient
