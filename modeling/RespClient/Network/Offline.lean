import RespClient.Network.Link

/-!
# A host without a route

Where no network can be reached, an address is still looked at before it is
dialed: it has to end in a colon and a service number. An address of that form
is unreachable.
-/

namespace RespClient

/-- Why an address cannot be one. -/
inductive AddressFlaw where
  /-- It has no colon. -/
  | noService
  /-- What follows the last colon is no number of 16 bits. -/
  | badService
  deriving DecidableEq, Repr

def AddressFlaw.message : AddressFlaw → String
  | noService => "invalid socket address"
  | badService => "invalid port value"

/-- What is wrong with the form of an address, if anything. -/
def addressFlaw? (address : String) : Option AddressFlaw :=
  match cut ':' address.toList.reverse with
  | none => some .noService
  | some (number, _) =>
      match Decimal.readUInt16 number.reverse with
      | .ok _ => none
      | .error _ => some .badService

/-- The peer that nobody reaches. -/
structure Offline where
  deriving DecidableEq, Repr

namespace Offline

def unreachable : String := "Network is unreachable (os error 101)"

/-- Every dial fails. -/
def refusal (endpoint : Endpoint) : Failure :=
  .io (((addressFlaw? endpoint.address).map AddressFlaw.message).getD unreachable)

instance : Peer Offline where
  accept endpoint peer := .error (refusal endpoint) peer
  hear _ peer := .error (.io unreachable) peer
  hangUp := id

end Offline

end RespClient
