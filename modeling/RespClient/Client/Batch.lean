import RespClient.Client.Basic
import RespClient.Content

/-!
# Batches

A batch asks the same question about many keys or members in one round. Its
answers are in the order of its items. An error reply to any item is the
failure of the batch, except where a length is asked of a key that holds
another type.
-/

namespace RespClient.Client

variable {σ α : Type} [Network σ]

/-- The length reported for a key that holds another type. -/
def wrongTypeLength : Int64 := -1

/-- One round for all requests, and the replies read in order up to the first
that cannot be read. -/
def collect (client : Client) (requests : List Request) (read : Reply → Except Failure α) :
    Act (Session σ) (List α) := do
  let replies ← client.run requests
  Act.ofExcept (replies.mapM read)

/-- A command on a key, with further arguments after it. -/
def keyRequest (command : String) (key : Bytes) (args : List Reply) : Request :=
  { command, args := .bulk key :: args }

/-- How a length reply is read: a key of another type is not a failure. -/
def readLength (reply : Reply) : Except Failure Int64 :=
  match reply.answer with
  | .ok reply => reply.asInt
  | .error e => if e.isWrongType then .ok wrongTypeLength else .error e

/-- The type of each key, as the server names it. -/
def types (client : Client) (keys : List Key) : Act (Session σ) (List String) :=
  client.collect (keys.map fun key => keyRequest "type" key.bytes []) fun reply => do
    (← reply.answer).asText

/-- For each key, 1 if it exists and 0 if not. -/
def exist (client : Client) (keys : List Key) : Act (Session σ) (List Int64) :=
  client.collect (keys.map fun key => keyRequest "exists" key.bytes []) fun reply => do
    (← reply.answer).asInt

/-- The length of each key's value, measured for its declared type. -/
def lengths (client : Client) (keys : List Key) : Act (Session σ) (List Int64) :=
  client.collect (keys.map fun key => keyRequest key.type.lengthCommand key.bytes []) readLength

/-- The reply that holds each key's whole value, fetched for its declared type. -/
def values (client : Client) (keys : List Key) : Act (Session σ) (List Reply) :=
  client.collect (keys.map fun key =>
    keyRequest key.type.fetchCommand.1 key.bytes key.type.fetchCommand.2) Reply.answer

/-- The content of each key, read for its declared type. -/
def contents (client : Client) (keys : List Key) : Act (Session σ) (List Content) := do
  let replies ← client.values keys
  Act.ofExcept ((keys.zip replies).mapM fun (key, reply) => Content.ofReply key.type reply)

/-- Whether each member is in the set under a key. -/
def areMembers (client : Client) (key : Bytes) (members : List Bytes) :
    Act (Session σ) (List Bool) :=
  client.collect (members.map fun member => keyRequest "SISMEMBER" key [.bulk member])
    fun reply => do
      let n ← (← reply.answer).asInt
      pure (n = 1)

/-- The score of each member of the sorted set under a key, if it is one. -/
def scores (client : Client) (key : Bytes) (members : List Bytes) :
    Act (Session σ) (List (Option Bytes)) :=
  client.collect (members.map fun member => keyRequest "ZSCORE" key [.bulk member])
    fun reply => do (← reply.answer).asBytes?

end RespClient.Client
