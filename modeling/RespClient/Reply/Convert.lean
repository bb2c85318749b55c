import RespClient.Failure
import RespClient.Reply

/-!
# Reading a reply as a value

Each conversion takes the replies that can stand for its value and refuses the
others with the failure that shows the reply.
-/

namespace RespClient.Reply

/-- The refusal of a reply that cannot stand for the value wanted. -/
def cannotConvert (reply : Reply) (wanted : String) : Failure :=
  .conversion ("Cannot convert " ++ reply.describe ++ " to " ++ wanted)

/-- An error reply is the server's failure; any other reply is an answer. -/
def answer : Reply → Except Failure Reply
  | .error text => .error (.server text)
  | reply => .ok reply

theorem answer_eq_ok_iff {reply a : Reply} :
    reply.answer = .ok a ↔ a = reply ∧ ∀ text, reply ≠ .error text := by
  cases reply <;> simp [answer, eq_comm]

/-- A simple or bulk reply as text. -/
def asText : Reply → Except Failure String
  | .simple text => .ok text
  | .bulk data =>
      match Utf8.decode data with
      | .ok text => .ok text
      | .error fault => .error (.conversion ("Invalid UTF-8: " ++ fault.message))
  | reply => .error (reply.cannotConvert "string")

/-- An integer reply, or a bulk reply that writes an integer. -/
def asInt : Reply → Except Failure Int64
  | .integer n => .ok n
  | .bulk data =>
      match Decimal.readInt64 data.chars with
      | .ok n => .ok n
      | .error _ => .error (.conversion ("Cannot parse integer from " ++ Quoted.bytes data))
  | reply => .error (reply.cannotConvert "integer")

/-- The bytes that a simple or bulk reply carries. -/
def payload? : Reply → Option Bytes
  | .bulk data => some data
  | .simple text => some (Utf8.encode text)
  | _ => none

/-- A bulk or simple reply as bytes. -/
def asBytes (reply : Reply) : Except Failure Bytes :=
  match reply.payload? with
  | some data => .ok data
  | none => .error (reply.cannotConvert "bytes")

theorem asBytes_of_payload? {reply : Reply} {data : Bytes} (h : reply.payload? = some data) :
    reply.asBytes = .ok data := by
  rw [asBytes, h]

theorem asBytes_of_payload?_eq_none {reply : Reply} (h : reply.payload? = none) :
    reply.asBytes = .error (reply.cannotConvert "bytes") := by
  rw [asBytes, h]

/-- A reply as bytes, or nothing if it is nil. -/
def asBytes? : Reply → Except Failure (Option Bytes)
  | .null => .ok none
  | reply => reply.asBytes.map some

/-- The items of an array reply. -/
def asItems : Reply → Except Failure (List Reply)
  | .array items => .ok items
  | reply => .error (reply.cannotConvert "array")

/-- The items of a flat reply, where nil stands for no items. -/
def flatItems : Reply → Except Failure (List Reply)
  | .null => .ok []
  | reply => reply.asItems

end RespClient.Reply
