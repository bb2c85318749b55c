import RespClient.Client.Retry
import RespClient.Info
import RespClient.Keyspace

/-!
# The client

A client is ready once the server has answered a ping. It then asks single
questions; each goes through a round of its own.
-/

namespace RespClient.Client

variable {σ : Type} [Network σ]

/-- Ask one question. An error reply is a failure, but the connection that
brought it stays open. -/
def execute (client : Client) (request : Request) : Act (Session σ) Reply := do
  match ← client.run [request] with
  | reply :: _ => Act.ofExcept reply.answer
  | [] => throw (.unexpected ("no reply to " ++ request.command))

/-- Make a session ready: the endpoint has to have an address, and the server
has to answer a ping with its pong. -/
def start (client : Client) : Act (Session σ) Unit := do
  Act.ofExcept client.endpoint.validate
  let reply ← client.execute { command := "ping" }
  if reply = .simple "PONG" then pure ()
  else
    modify Session.close
    throw (.unexpected ("ping returned " ++ reply.describe))

/-- The server's description of itself, or one section of it. -/
def info (client : Client) (topic : Option String) : Act (Session σ) Info := do
  let reply ← client.execute { command := "info", args := (topic.map Reply.ofText).toList }
  let bytes ← Act.ofExcept reply.asBytes
  pure (Info.parse bytes)

/-- The number of keys in each database. -/
def keyspace (client : Client) : Act (Session σ) Keyspace := do
  let reply ← client.execute { command := "info", args := [.ofText "keyspace"] }
  let bytes ← Act.ofExcept reply.asBytes
  Act.ofExcept ((Keyspace.parse bytes).mapError Keyspace.Flaw.failure)

end RespClient.Client
