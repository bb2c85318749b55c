import RespClient.Failure
import RespClient.Setting
import RespClient.Text.Blank

/-!
# Endpoints

Where a client connects to and how: the address, the secret and the command
that presents it, the deadline of each call, and the endpoint's part in the
migration that is being checked.
-/

namespace RespClient

/-- The part of an endpoint in a migration. -/
inductive Role where
  | source
  | target
  deriving DecidableEq, Repr

namespace Role

def name : Role → String
  | source => "source"
  | target => "target"

def ofName? (text : String) : Option Role :=
  [source, target].find? (·.name = text)

end Role

/-- The command that presents the secret. -/
inductive AuthMethod where
  | auth
  | adminAuth
  deriving DecidableEq, Repr

namespace AuthMethod

def command : AuthMethod → String
  | auth => "auth"
  | adminAuth => "adminauth"

def ofName? (text : String) : Option AuthMethod :=
  [auth, adminAuth].find? (·.command = text)

end AuthMethod

structure Endpoint where
  /-- A host and a service number, with a colon between them. -/
  address : String
  password : Option String := none
  /-- Milliseconds that a call may take; none at all means that it may take any time. -/
  timeoutMs : UInt64 := 0
  role : Role := .source
  authMethod : AuthMethod := .auth
  deriving DecidableEq, Repr

namespace Endpoint

/-- The endpoint as messages show it. -/
def label (endpoint : Endpoint) : String :=
  endpoint.role.name ++ " redis addr: " ++ endpoint.address

/-- The deadline of a call in milliseconds, if there is one. -/
def deadline? (endpoint : Endpoint) : Option UInt64 :=
  if endpoint.timeoutMs = 0 then none else some endpoint.timeoutMs

/-- The secret to present; an empty password is none. -/
def secret? (endpoint : Endpoint) : Option String :=
  endpoint.password.filter (· ≠ "")

/-- An endpoint can be dialed when its address is not blank. -/
def validate (endpoint : Endpoint) : Except Failure Unit :=
  if trim endpoint.address.toList = [] then
    .error (.config (endpoint.role.name ++ " has no address"))
  else .ok ()

/-- An endpoint from settings, of which all but the address may be missing. -/
def ofParts? (address password timeoutMs role authMethod : Option Setting) : Option Endpoint := do
  let address ← (← address).asText?
  let password ← (password.map Setting.asTextOrNull?).getD (some none)
  let timeoutMs ← (timeoutMs.map Setting.asUInt64?).getD (some 0)
  let role ← (role.map fun s => s.asAlternative?.bind Role.ofName?).getD (some .source)
  let authMethod ← (authMethod.map fun s => s.asAlternative?.bind AuthMethod.ofName?).getD
    (some .auth)
  pure { address, password, timeoutMs, role, authMethod }

/-- The endpoint that a table of settings describes by field name, or a list of
settings in the order of the fields. Fields of other names do not matter. -/
def ofSetting? : Setting → Option Endpoint
  | .table fields =>
      ofParts? (fields.lookup "address") (fields.lookup "password") (fields.lookup "timeout_ms")
        (fields.lookup "role") (fields.lookup "auth_type")
  | .list items =>
      if items.length ≤ 5 then ofParts? items[0]? items[1]? items[2]? items[3]? items[4]?
      else none
  | _ => none

end Endpoint

/-- How often a round is tried again after network failures, and how long to
wait before each new try. -/
structure RetryPolicy where
  maxRetries : Nat := 20
  backoffMs : Nat := 1000
  deriving DecidableEq, Repr

end RespClient
